import Mathlib.Logic.Function.Iterate
import Rtl8852au.Words

namespace Rtl8852au.Machine

-- States reached from `origin` by steps that each meet `guard` in the state
-- they are taken from. With `guard` always true these are all runs.
inductive Reached (step : σ → ε → σ) (guard : σ → ε → Prop) (origin : σ) : σ → Prop where
  | start : Reached step guard origin origin
  | step : Reached step guard origin s → guard s event → Reached step guard origin (step s event)

def run (step : σ → ε → σ) (s : σ) (events : List ε) : σ := events.foldl step s

def Admitted (step : σ → ε → σ) (guard : σ → ε → Prop) : σ → List ε → Prop
  | _,[] => True
  | s,event :: rest => guard s event ∧ Admitted step guard (step s event) rest

instance decidableAdmitted (step : σ → ε → σ) (guard : σ → ε → Prop) [∀ s event, Decidable (guard s event)] :
    (s : σ) → (events : List ε) → Decidable (Admitted step guard s events)
  | _,[] => isTrue trivial
  | s,event :: rest =>
    have := decidableAdmitted step guard (step s event) rest
    inferInstanceAs (Decidable (guard s event ∧ Admitted step guard (step s event) rest))

def Leads {σ : Type u} (next : σ → σ) (s t : σ) : Prop := ∃ n, next^[n] s = t
theorem Leads.refl {σ : Type u} (next : σ → σ) (s : σ) : Leads next s s := ⟨0,rfl⟩

theorem Leads.ahead {σ : Type u} {next : σ → σ} {s t : σ} (rest : Leads next (next s) t) : Leads next s t := by
  obtain ⟨n,there⟩ := rest
  exact ⟨n+1,there⟩

theorem Leads.trans {σ : Type u} {next : σ → σ} {s t u : σ} (one : Leads next s t) (two : Leads next t u) : Leads next s u := by
  obtain ⟨m,rfl⟩ := one
  obtain ⟨n,rfl⟩ := two
  exact ⟨n+m,Function.iterate_add_apply next n m s⟩

theorem Leads.keeps {σ : Type u} {next : σ → σ} {s t : σ} (leads : Leads next s t) (inv : σ → Prop) (start : inv s)
    (kept : ∀ s, inv s → inv (next s)) : inv t := by
  obtain ⟨n,rfl⟩ := leads
  induction n with
  | zero => exact start
  | succ n ih =>
    rw [Function.iterate_succ_apply']
    exact kept _ ih

theorem Leads.arrives {σ : Type u} {next : σ → σ} (done inv : σ → Prop) (measure : σ → Nat)
    (kept : ∀ s, inv s → ¬done s → inv (next s)) (drop : ∀ s, inv s → ¬done s → measure (next s) < measure s)
    {s : σ} (start : inv s) : ∃ t, Leads next s t ∧ done t := by
  induction size : measure s using Nat.strongRecOn generalizing s with
  | ind n ih =>
    by_cases here : done s
    · exact ⟨s,.refl next s,here⟩
    · obtain ⟨t,rest,there⟩ := ih _ (size ▸ drop s start here) (kept s start here) rfl
      exact ⟨t,rest.ahead,there⟩

variable {step : σ → ε → σ} {guard : σ → ε → Prop} {origin s : σ}

theorem Reached.invariant (path : Reached step guard origin s) (inv : σ → Prop) (start : inv origin)
    (kept : ∀ s event, inv s → guard s event → inv (step s event)) : inv s := by
  induction path with
  | start => exact start
  | step _ allowed ih => exact kept _ _ ih allowed

theorem Reached.run (path : Reached step guard origin s) (admitted : Admitted step guard s events) :
    Reached step guard origin (run step s events) := by
  induction events generalizing s with
  | nil => exact path
  | cons event rest ih => exact ih (.step path admitted.1) admitted.2

-- A C loop cut off after `fuel` rounds; `iterate_exits` is the proof that the
-- cut is never reached.
def iterate (more : σ → Bool) (body : σ → σ) : Nat → σ → σ
  | 0,s => s
  | fuel+1,s => if more s then iterate more body fuel (body s) else s

theorem iterate_keeps {more : σ → Bool} {body : σ → σ} (inv : σ → Prop)
    (kept : ∀ s, inv s → more s → inv (body s)) (start : inv s) :
    inv (iterate more body fuel s) := by
  induction fuel generalizing s with
  | zero => exact start
  | succ fuel ih =>
    unfold iterate
    split
    · rename_i again; exact ih (kept s start again)
    · exact start

theorem iterate_exits {more : σ → Bool} {body : σ → σ} (inv : σ → Prop) (measure : σ → Nat)
    (kept : ∀ s, inv s → more s → inv (body s))
    (drop : ∀ s, inv s → more s → measure (body s) < measure s)
    (start : inv s) (enough : measure s ≤ fuel) : more (iterate more body fuel s) = false := by
  induction fuel generalizing s with
  | zero =>
    cases again : more s with
    | false => exact again
    | true => have smaller := drop s start again; omega
  | succ fuel ih =>
    unfold iterate
    split
    · rename_i again
      have smaller := drop s start again
      exact ih (kept s start again) (by omega)
    · rename_i stop; simpa using stop

theorem iterate_counted {more : σ → Bool} {body : σ → σ} (inv : Nat → σ → Prop) (limit : Nat)
    (kept : ∀ n s, inv n s → more s → n < limit ∧ inv (n+1) (body s)) (start : inv n s) (enough : limit ≤ n + fuel) :
    more (iterate more body fuel s) = false ∧ ∃ m, inv m (iterate more body fuel s) := by
  induction fuel generalizing n s with
  | zero =>
    refine ⟨?_,n,start⟩
    rw [iterate]
    cases again : more s with
    | false => rfl
    | true =>
      have short := (kept n s start again).1
      omega
  | succ fuel ih =>
    unfold iterate
    split
    · rename_i again
      exact ih (kept n s start again).2 (by omega)
    · rename_i stop
      exact ⟨by simpa using stop,n,start⟩
end Rtl8852au.Machine
