namespace Rtl8852au.Fallible

def Prog (σ ε α : Type) : Type := σ → Except ε α × σ

namespace Prog

def fail (e : ε) : Prog σ ε α := fun s => (.error e,s)
def look : Prog σ ε σ := fun s => (.ok s,s)
def change (f : σ → σ) : Prog σ ε Unit := fun s => (.ok (),f s)
def check (holds : Bool) (e : ε) : Prog σ ε Unit := if holds then fun s => (.ok (),s) else fail e
def onlyIf (holds : Bool) (m : Prog σ ε Unit) : Prog σ ε Unit := if holds then m else fun s => (.ok (),s)

-- The handler decides what the failure of `m` ends in.
def handle (m : Prog σ ε α) (handler : ε → Prog σ ε α) : Prog σ ε α := fun s =>
  match m s with
  | (.ok a,s) => (.ok a,s)
  | (.error e,s) => handler e s

instance : Monad (Prog σ ε) where
  pure a := fun s => (.ok a,s)
  bind m f := fun s =>
    match m s with
    | (.ok a,s) => f a s
    | (.error e,s) => (.error e,s)

def each (body : ι → Prog σ ε Unit) : List ι → Prog σ ε Unit
  | [] => pure ()
  | i :: rest => body i >>= fun _ => each body rest
end Prog
open Prog

theorem pure_run (a : α) (s : σ) : (pure a : Prog σ ε α) s = (.ok a,s) := rfl

theorem bind_run (m : Prog σ ε α) (f : α → Prog σ ε β) (s : σ) :
    (m >>= f) s = match m s with
      | (.ok a,s) => f a s
      | (.error e,s) => (.error e,s) := rfl

theorem check_run (holds : Bool) (e : ε) (s : σ) : check holds e s = if holds then (.ok (),s) else (.error e,s) := by
  cases holds <;> rfl

theorem onlyIf_run (holds : Bool) (m : Prog σ ε Unit) (s : σ) : onlyIf holds m s = if holds then m s else (.ok (),s) := by
  cases holds <;> rfl

-- What holds at the end of `m`, of the value or of the failure, when `before`
-- held at its start.
def Triple (before : σ → Prop) (m : Prog σ ε α) (after : α → σ → Prop) (failed : ε → σ → Prop) : Prop :=
  ∀ s, before s → match m s with
    | (.ok a,s) => after a s
    | (.error e,s) => failed e s

abbrev Stays (inv : σ → Prop) (m : Prog σ ε α) : Prop := Triple inv m (fun _ => inv) fun _ => inv

section
variable {before : σ → Prop} {failed : ε → σ → Prop}

theorem chain {m : Prog σ ε α} {f : α → Prog σ ε β} (first : Triple before m middle failed)
    (second : ∀ a, Triple (middle a) (f a) after failed) : Triple before (m >>= f) after failed := by
  intro s pre
  have one := first s pre
  rw [bind_run]
  rcases ran : m s with ⟨result,mid⟩
  simp only [ran] at one ⊢
  cases result with
  | error e => exact one
  | ok a => exact second a mid one

theorem triple_seq {m : Prog σ ε α} {f : α → Prog σ ε β} {g : β → Prog σ ε γ}
    (first : Triple before (m >>= f) middle failed) (second : ∀ b, Triple (middle b) (g b) after failed) :
    Triple before (m >>= fun a => f a >>= g) after failed := by
  have regroup : (m >>= fun a => f a >>= g) = ((m >>= f) >>= g) := by
    funext s
    simp only [bind_run]
    rcases m s with ⟨result,mid⟩
    cases result with
    | error e => rfl
    | ok a => rfl
  rw [regroup]
  exact chain first second

theorem triple_pure {a : α} (holds : ∀ s, before s → after a s) : Triple before (pure a : Prog σ ε α) after failed :=
  fun s pre => holds s pre

theorem triple_done {a : α} : Triple before (pure a : Prog σ ε α) (fun _ => before) failed := triple_pure fun _ holds => holds

theorem triple_fail {after : α → σ → Prop} (holds : ∀ s, before s → failed e s) :
    Triple before (fail e) after failed := fun s pre => holds s pre

theorem triple_look : Triple before look (fun _ => before) failed := fun _ pre => pre

theorem triple_change {after : Unit → σ → Prop} (holds : ∀ s, before s → after () (f s)) :
    Triple before (change f) after failed := fun s pre => holds s pre

theorem triple_check {after : Unit → σ → Prop} (passes : ∀ s, before s → holds = true → after () s)
    (fails : ∀ s, before s → failed e s) : Triple before (check holds e) after failed := by
  intro s pre
  unfold check
  cases test : holds with
  | false => exact fails s pre
  | true => exact passes s pre test

theorem triple_ite {m n : Prog σ ε α} {c : Prop} [Decidable c] (yes : c → Triple before m after failed)
    (no : ¬c → Triple before n after failed) : Triple before (if c then m else n) after failed := by
  split
  · rename_i test; exact yes test
  · rename_i test; exact no test

theorem triple_onlyIf {m : Prog σ ε Unit} {after : Unit → σ → Prop} (yes : holds = true → Triple before m after failed)
    (no : holds = false → ∀ s, before s → after () s) : Triple before (onlyIf holds m) after failed := by
  unfold onlyIf
  cases test : holds with
  | false => exact fun s pre => no test s pre
  | true => exact yes test

theorem triple_maybe {m : Prog σ ε Unit} (yes : holds = true → Triple before m (fun _ => before) failed) :
    Triple before (onlyIf holds m) (fun _ => before) failed := triple_onlyIf yes fun _ _ here => here

theorem triple_at {m : Prog σ ε α} (here : ∀ s, before s → Triple (· = s) m after failed) :
    Triple before m after failed := fun s pre => here s pre s rfl

theorem at_look {f : σ → Prog σ ε α} (rest : Triple (· = s) (f s) after failed) :
    Triple (· = s) (look >>= f) after failed := by
  intro s' here
  subst here
  exact rest s' rfl

theorem at_use {m : Prog σ ε α} (holds : before s) (rest : Triple before m after failed) :
    Triple (· = s) m after failed := by
  intro s' here
  subst here
  exact rest s' holds

theorem triple_handle {m : Prog σ ε α} {handler : ε → Prog σ ε α} (first : Triple before m after middle)
    (second : ∀ e, Triple (middle e) (handler e) after failed) : Triple before (handle m handler) after failed := by
  intro s pre
  have one := first s pre
  unfold handle
  rcases ran : m s with ⟨result,mid⟩
  simp only [ran] at one ⊢
  cases result with
  | ok a => exact one
  | error e => exact second e mid one

theorem triple_mono {m : Prog σ ε α} (pre : ∀ s, stronger s → before s) (base : Triple before m after failed)
    (post : ∀ a s, after a s → weaker a s) (exit : ∀ e s, failed e s → lenient e s) :
    Triple stronger m weaker lenient := by
  intro s start
  have one := base s (pre s start)
  rcases ran : m s with ⟨result,mid⟩
  simp only [ran] at one ⊢
  cases result with
  | ok a => exact post a mid one
  | error e => exact exit e mid one

theorem Triple.weaken {m : Prog σ ε α} (base : Triple before m after failed) (post : ∀ a s, after a s → weaker a s)
    (exit : ∀ e s, failed e s → lenient e s) : Triple before m weaker lenient := triple_mono (fun _ holds => holds) base post exit

theorem Triple.post {m : Prog σ ε α} (base : Triple before m after failed) (post : ∀ a s, after a s → weaker a s) :
    Triple before m weaker failed := base.weaken post fun _ _ left => left

theorem triple_and {m : Prog σ ε α} (one : Triple before m after failed) (two : Triple before' m after' failed') :
    Triple (fun s => before s ∧ before' s) m (fun a s => after a s ∧ after' a s) fun e s => failed e s ∧ failed' e s := by
  intro s holds
  have first := one s holds.1
  have second := two s holds.2
  rcases ran : m s with ⟨result,mid⟩
  simp only [ran] at first second ⊢
  cases result with
  | ok a => exact ⟨first,second⟩
  | error e => exact ⟨first,second⟩

theorem triple_exit {m : Prog σ ε α} {leave : σ → Prop} (base : Triple before m after fun _ => leave)
    (exit : ∀ s, leave s → lenient s) : Triple before m after fun _ => lenient :=
  base.weaken (fun _ _ holds => holds) fun _ => exit

theorem Triple.success {m : Prog σ ε α} (base : Triple before m after failed) : Triple before m after fun _ _ => True :=
  base.weaken (fun _ _ holds => holds) fun _ _ _ => trivial

theorem Triple.ok {m : Prog σ ε α} (base : Triple before m after failed) (holds : before s) (ran : m s = (.ok a,s')) :
    after a s' := by
  have one := base s holds
  rw [ran] at one
  exact one

theorem Triple.always {m : Prog σ ε α} (base : Triple before m (fun _ => inv) fun _ => inv) (holds : before s) :
    inv (m s).2 := by
  have one := base s holds
  rcases ran : m s with ⟨result,s'⟩
  rw [ran] at one
  cases result with
  | ok a => exact one
  | error e => exact one

theorem Triple.total {m : Prog σ ε α} (base : Triple before m after fun _ _ => False) (holds : before s) :
    ∃ a s', m s = (.ok a,s') ∧ after a s' := by
  have one := base s holds
  rcases ran : m s with ⟨result,s'⟩
  rw [ran] at one
  cases result with
  | ok a => exact ⟨a,s',rfl,one⟩
  | error e => exact one.elim

theorem ran_of_toOption {m : Prog σ ε α} (ran : (m s).1.toOption = some a) : m s = (.ok a,(m s).2) := by
  revert ran
  rcases m s with ⟨result,s'⟩
  cases result with
  | error e => simp [Except.toOption]
  | ok b => simp [Except.toOption]

theorem triple_each (inv : List ι → σ → Prop) {body : ι → Prog σ ε Unit}
    (kept : ∀ done i rest, items = done ++ i :: rest → Triple (inv done) (body i) (fun _ => inv (done ++ [i])) failed) :
    Triple (inv []) (each body items) (fun _ => inv items) failed := by
  have general : ∀ rest done, items = done ++ rest → Triple (inv done) (each body rest) (fun _ => inv items) failed := by
    intro rest
    induction rest with
    | nil =>
      intro done split
      rw [split,List.append_nil]
      exact triple_pure fun _ holds => holds
    | cons i rest ih =>
      intro done split
      refine chain (kept done i rest split) fun _ => ?_
      exact ih (done ++ [i]) (by rw [split,List.append_assoc,List.singleton_append])
  exact general items [] rfl

theorem range_split (split : List.range n = done ++ i :: rest) : i < n ∧ done = List.range i := by
  have place : done.length < (List.range n).length := by rw [split]; simp
  have here : (List.range n)[done.length]? = some i := by simp [split]
  rw [List.length_range] at place
  rw [List.getElem?_range place,Option.some.injEq] at here
  refine ⟨by omega,?_⟩
  have front : (List.range n).take done.length = done := by simp [split]
  rw [← here,← front,List.take_range,List.length_range,Nat.min_eq_left (by omega)]
end
end Rtl8852au.Fallible
