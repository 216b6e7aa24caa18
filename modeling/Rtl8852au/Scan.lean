import Mathlib.Data.Set.Card

namespace Rtl8852au.Scan
open Relation Option List Prod

inductive Next (σ ρ : Type) where
  | again : σ → Next σ ρ
  | done : ρ → Next σ ρ
  deriving DecidableEq

structure Turn (σ ρ : Type) where
  reads : List Nat
  next : Next σ ρ
  deriving DecidableEq

def span (at_ count : Nat) : List Nat := range' at_ count
@[simp] theorem mem_span {at_ count a : Nat} : a ∈ span at_ count ↔ at_ ≤ a ∧ a < at_ + count := mem_range'_1

def follow (step : σ → Turn σ ρ) : Nat → Turn σ ρ → Option (List Nat × ρ)
  | 0,t =>
    match t.next with
    | .again _ => none
    | .done r => some (t.reads,r)
  | fuel+1,t =>
    match t.next with
    | .again s => (follow step fuel (step s)).map fun out => (t.reads ++ out.1,out.2)
    | .done r => some (t.reads,r)

def Inside (limit : Nat) (reads : List Nat) : Prop := ∀ a ∈ reads, a < limit

def Safe (step : σ → Turn σ ρ) (limit : Nat) (good : ρ → Prop) (t : Turn σ ρ) : Prop :=
  ∃ fuel reads r, follow step fuel t = some (reads,r) ∧ Inside limit reads ∧ good r

def Goes (step : σ → Turn σ ρ) (s s' : σ) : Prop := (step s).next = .again s'

variable {step : σ → Turn σ ρ} {limit : Nat} {good : ρ → Prop} {t u : Turn σ ρ} {s s' : σ}

theorem inside_nil : Inside limit [] := by
  intro a member
  cases member

theorem inside_append {front back : List Nat} : Inside limit (front ++ back) ↔ Inside limit front ∧ Inside limit back := by
  simp only [Inside,mem_append,or_imp,forall_and]

theorem inside_span {at_ count : Nat} : Inside limit (span at_ count) ↔ count = 0 ∨ at_ + count ≤ limit := by
  simp only [Inside,mem_span]
  constructor
  · intro all
    cases count with
    | zero => exact .inl rfl
    | succ last =>
      have bound := all (at_+last) (by omega)
      exact .inr (by omega)
  · intro small a within
    omega

theorem follow_done (last : t.next = .done r) (fuel : Nat) : follow step fuel t = some (t.reads,r) := by
  cases fuel <;> simp only [follow,last]

theorem follow_agree (one : follow step fuel t = some out) (two : follow step fuel' t = some out') : out = out' := by
  induction fuel generalizing t fuel' out out' with
  | zero =>
    cases next : t.next with
    | again s => simp only [follow,next,reduceCtorEq] at one
    | done r =>
      rw [follow_done next] at one two
      cases one
      exact some.inj two
  | succ fuel ih =>
    cases next : t.next with
    | again s =>
      cases fuel' with
      | zero => simp only [follow,next,reduceCtorEq] at two
      | succ fuel' =>
        simp only [follow,next,map_eq_some_iff] at one two
        obtain ⟨rest,there,rfl⟩ := one
        obtain ⟨rest',there',rfl⟩ := two
        rw [ih there there']
    | done r =>
      rw [follow_done next] at one two
      cases one
      exact some.inj two

theorem follow_again (more : t.next = .again s) (fuel : Nat) :
    follow step (fuel+1) t = (follow step fuel (step s)).map fun out => (t.reads ++ out.1,out.2) := by
  simp only [follow,more]

theorem result_done (last : t.next = .done r) (fuel : Nat) : (follow step fuel t).map snd = some r := by
  rw [follow_done last]
  rfl

theorem result_again (more : t.next = .again s) (fuel : Nat) :
    (follow step (fuel+1) t).map snd = (follow step fuel (step s)).map snd := by
  rw [follow_again more,Option.map_map]
  rfl

theorem settled (after : ρ → β) (good : β → Prop) (ended : (follow step fuel t).map snd = some r) :
    (∃ fuel out, ((follow step fuel t).map snd).map after = some out ∧ good out) ↔ good (after r) := by
  constructor
  · intro ⟨fuel',out,there,fine⟩
    rw [map_eq_some_iff] at ended
    obtain ⟨first,call,rfl⟩ := ended
    rw [Option.map_map,Option.map_eq_some_iff] at there
    obtain ⟨second,call',rfl⟩ := there
    rw [follow_agree call call']
    exact fine
  · intro fine
    exact ⟨fuel,after r,by rw [ended]; rfl,fine⟩

theorem safe_done (last : t.next = .done r) : Safe step limit good t ↔ Inside limit t.reads ∧ good r := by
  constructor
  · rintro ⟨fuel,reads,result,ended,inside,fine⟩
    rw [follow_done last] at ended
    cases ended
    exact ⟨inside,fine⟩
  · intro ⟨inside,fine⟩
    exact ⟨0,t.reads,r,follow_done last 0,inside,fine⟩

theorem safe_again (more : t.next = .again s) : Safe step limit good t ↔ Inside limit t.reads ∧ Safe step limit good (step s) := by
  constructor
  · rintro ⟨fuel,reads,result,ended,inside,fine⟩
    cases fuel with
    | zero => simp only [follow,more,reduceCtorEq] at ended
    | succ fuel =>
      simp only [follow,more,map_eq_some_iff] at ended
      obtain ⟨⟨later,r⟩,rest,joined⟩ := ended
      cases joined
      obtain ⟨now,behind⟩ := inside_append.mp inside
      exact ⟨now,fuel,later,r,rest,behind,fine⟩
  · rintro ⟨now,fuel,reads,result,ended,inside,fine⟩
    refine ⟨fuel+1,t.reads ++ reads,result,?_,inside_append.mpr ⟨now,inside⟩,fine⟩
    simp only [follow,more,ended,map_some]

theorem safe_stop {reads : List Nat} {r : ρ} : Safe step limit good ⟨reads,.done r⟩ ↔ Inside limit reads ∧ good r := safe_done rfl

theorem Safe.inside (safe : Safe step limit good t) : Inside limit t.reads := by
  cases next : t.next with
  | again s => exact ((safe_again next).mp safe).1
  | done r => exact ((safe_done next).mp safe).1

theorem Safe.ahead (safe : Safe step limit good (step s)) (goes : Goes step s s') : Safe step limit good (step s') :=
  ((safe_again goes).mp safe).2

theorem Safe.reached (safe : Safe step limit good (step s)) (path : ReflTransGen (Goes step) s s') :
    Safe step limit good (step s') := by
  induction path with
  | refl => exact safe
  | tail _ goes ih => exact ih.ahead goes

theorem follow_ahead (ended : (follow step fuel (step s)).isSome) (goes : Goes step s s') :
    ∃ less < fuel, (follow step less (step s')).isSome := by
  unfold Goes at goes
  cases fuel with
  | zero => simp [follow,goes] at ended
  | succ fuel =>
    simp only [follow,goes,isSome_map] at ended
    exact ⟨fuel,by omega,ended⟩

theorem follow_reached (ended : (follow step fuel (step s)).isSome) (path : TransGen (Goes step) s s') :
    ∃ less < fuel, (follow step less (step s')).isSome := by
  induction path with
  | single goes => exact follow_ahead ended goes
  | tail _ goes ih =>
    obtain ⟨less,fewer,left⟩ := ih
    obtain ⟨least,smaller,rest⟩ := follow_ahead left goes
    exact ⟨least,by omega,rest⟩

theorem returns_never (returns : TransGen (Goes step) s s) (fuel : Nat) : follow step fuel (step s) = none := by
  induction fuel using Nat.strongRecOn with
  | ind fuel ih =>
    cases ended : follow step fuel (step s) with
    | none => rfl
    | some out =>
      obtain ⟨less,fewer,left⟩ := follow_reached (by rw [ended]; rfl) returns
      rw [ih less fewer] at left
      cases left

theorem Safe.fresh (safe : Safe step limit good (step s)) : ¬ TransGen (Goes step) s s := by
  intro returns
  obtain ⟨fuel,reads,r,ended,_⟩ := safe
  rw [returns_never returns] at ended
  cases ended

theorem Safe.moves (safe : Safe step limit good (step s)) : (step s).next ≠ .again s := by
  intro stays
  exact safe.fresh (.single stays)

structure Sound (step : σ → Turn σ ρ) (limit : Nat) (good : ρ → Prop) (t : Turn σ ρ) : Prop where
  inside : Inside limit t.reads
  fine : ∀ r, t.next = .done r → good r

theorem Safe.sound (safe : Safe step limit good t) : Sound step limit good t := by
  refine ⟨safe.inside,?_⟩
  intro r last
  exact ((safe_done last).mp safe).2

theorem safe_begun (inv : σ → Prop) (rank : σ → Nat) (sound : ∀ s, inv s → Sound step limit good (step s))
    (nearer : ∀ s s', inv s → (step s).next = .again s' → inv s' ∧ rank s' < rank s) (start : inv s) :
    Safe step limit good (step s) := by
  induction size : rank s using Nat.strongRecOn generalizing s with
  | ind n ih =>
    have now := sound s start
    cases next : (step s).next with
    | done r => exact (safe_done next).mpr ⟨now.inside,now.fine r next⟩
    | again s' =>
      obtain ⟨kept,drop⟩ := nearer s s' start next
      exact (safe_again next).mpr ⟨now.inside,ih (rank s') (by omega) kept rfl⟩

theorem safe_iff_sound (goes : σ → σ → Prop) (turns : ∀ s s', Goes step s s' ↔ goes s s') (rank : σ → Nat)
    (drop : ∀ s s', goes s s' → rank s' < rank s) :
    Safe step limit good (step s) ↔ ∀ s', ReflTransGen goes s s' → Sound step limit good (step s') := by
  obtain rfl : Goes step = goes := by funext s s'; exact propext (turns s s')
  constructor
  · intro safe s' path
    exact (safe.reached path).sound
  · intro all
    refine safe_begun (ReflTransGen (Goes step) s) rank all ?_ .refl
    intro s s' path next
    exact ⟨path.tail next,drop s s' next⟩

theorem safe_iff_fresh [Finite σ] (goes : σ → σ → Prop) (turns : ∀ s s', Goes step s s' ↔ goes s s') :
    Safe step limit good (step s) ↔ ∀ s', ReflTransGen goes s s' → Sound step limit good (step s') ∧ ¬ TransGen goes s' s' := by
  obtain rfl : Goes step = goes := by funext s s'; exact propext (turns s s')
  constructor
  · intro safe s' path
    exact ⟨(safe.reached path).sound,(safe.reached path).fresh⟩
  · intro all
    refine safe_begun (ReflTransGen (Goes step) s) (fun s => { s' | TransGen (Goes step) s s' }.ncard) (fun s' path => (all s' path).1) ?_ .refl
    intro s s' path next
    refine ⟨path.tail next,Set.ncard_lt_ncard ⟨?_,?_⟩ (Set.toFinite _)⟩
    · intro later rest
      exact TransGen.head next rest
    · intro same
      exact (all s' (path.tail next)).2 (same (TransGen.single next))

def Next.map (f : σ → τ) (g : ρ → ρ') : Next σ ρ → Next τ ρ'
  | .again s => .again (f s)
  | .done r => .done (g r)

def Turn.map (f : σ → τ) (g : ρ → ρ') (t : Turn σ ρ) : Turn τ ρ' := ⟨t.reads,t.next.map f g⟩

theorem follow_map {step' : τ → Turn τ ρ'} (f : σ → τ) (g : ρ → ρ') (maps : ∀ s, step' (f s) = (step s).map f g) (fuel : Nat)
    (t : Turn σ ρ) : follow step' fuel (t.map f g) = (follow step fuel t).map fun out => (out.1,g out.2) := by
  induction fuel generalizing t with
  | zero =>
    cases next : t.next with
    | again s => simp only [follow,Turn.map,Next.map,next,map_none]
    | done r => simp only [follow,Turn.map,Next.map,next,map_some]
  | succ fuel ih =>
    cases next : t.next with
    | again s =>
      have rest := ih (step s)
      simp only [follow,Turn.map,Next.map,next,maps] at rest ⊢
      rw [rest]
      simp only [Option.map_map]
      rfl
    | done r => simp only [follow,Turn.map,Next.map,next,map_some]

theorem safe_map {step' : τ → Turn τ ρ'} (f : σ → τ) (g : ρ → ρ') (maps : ∀ s, step' (f s) = (step s).map f g) {good' : ρ' → Prop} :
    Safe step' limit good' (t.map f g) ↔ Safe step limit (fun r => good' (g r)) t := by
  constructor
  · rintro ⟨fuel,reads,r,ended,inside,fine⟩
    rw [follow_map f g maps,map_eq_some_iff] at ended
    obtain ⟨⟨reads',r'⟩,ended,same⟩ := ended
    cases same
    exact ⟨fuel,_,r',ended,inside,fine⟩
  · rintro ⟨fuel,reads,r,ended,inside,fine⟩
    refine ⟨fuel,reads,g r,?_,inside,fine⟩
    rw [follow_map f g maps,ended]
    rfl

end Rtl8852au.Scan
