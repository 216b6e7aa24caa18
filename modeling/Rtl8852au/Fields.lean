
namespace Rtl8852au.Fields
open List

variable {α : Type}

structure Format (α : Type) where
  head : Nat
  present : 0 < head
  tail : List α → Nat
  fine : List α → Bool
  bare : Bool

def Format.Complete (f : Format α) (field : List α) : Prop :=
  field.length = f.head + f.tail (field.take f.head) ∧ f.fine (field.take f.head)

inductive Cut : List (Format α) → List (List α) → Prop where
  | stop (formats : List (Format α)) : Cut formats []
  | field {f : Format α} {formats : List (Format α)} {field : List α} {fields : List (List α)} :
      f.Complete field → Cut formats fields → Cut (f :: formats) (field :: fields)

inductive Ending where
  | clean
  | bare
  | extra
deriving DecidableEq

-- What a lenient reader takes: complete fields, and then nothing, the head of
-- the next field, or bytes after the last one.
inductive Reads : List (Format α) → List α → List (List α) → Ending → Prop where
  | clean (formats : List (Format α)) : Reads formats [] [] .clean
  | bare {f : Format α} {head : List α} (formats : List (Format α)) :
      f.bare → head.length = f.head → f.fine head → 0 < f.tail head → Reads (f :: formats) head [] .bare
  | extra {rest : List α} : rest ≠ [] → Reads [] rest [] .extra
  | field {f : Format α} {formats : List (Format α)} {field rest : List α} {fields : List (List α)} {ending : Ending} :
      f.Complete field → Reads formats rest fields ending → Reads (f :: formats) (field ++ rest) (field :: fields) ending

def parse : List (Format α) → List α → Option (List (List α) × Ending)
  | [],[] => some ([],.clean)
  | [],_ :: _ => some ([],.extra)
  | f :: formats,bytes =>
    if bytes.length = 0 then some ([],.clean)
    else if bytes.length < f.head then none
    else if f.fine (bytes.take f.head) = false then none
    else if bytes.length < f.head + f.tail (bytes.take f.head) then
      if f.bare ∧ bytes.length = f.head then some ([],.bare) else none
    else
      (parse formats (bytes.drop (f.head + f.tail (bytes.take f.head)))).map fun (fields,ending) =>
        (bytes.take (f.head + f.tail (bytes.take f.head)) :: fields,ending)

theorem Format.Complete.head_le {f : Format α} {field : List α} (complete : f.Complete field) : f.head ≤ field.length := by
  obtain ⟨length,_⟩ := complete
  omega

theorem Format.Complete.take_head {f : Format α} {field : List α} (complete : f.Complete field) (rest : List α) :
    (field ++ rest).take f.head = field.take f.head :=
  take_append_of_le_length complete.head_le

theorem parse_nil (formats : List (Format α)) : parse formats [] = some ([],.clean) := by cases formats <;> rfl

theorem parse_bare {f : Format α} {head : List α} (formats : List (Format α)) (bare : f.bare)
    (length : head.length = f.head) (fine : f.fine head) (tail : 0 < f.tail head) :
    parse (f :: formats) head = some ([],.bare) := by
  have present := f.present
  have whole : head.take f.head = head := take_of_length_le (Nat.le_of_eq length)
  unfold parse
  rw [whole,if_neg (by omega),if_neg (by omega),if_neg (by simp [fine]),if_pos (by omega),if_pos ⟨bare,length⟩]

theorem parse_field {f : Format α} {field : List α} (formats : List (Format α)) (complete : f.Complete field) (rest : List α) :
    parse (f :: formats) (field ++ rest) = (parse formats rest).map fun (fields,ending) => (field :: fields,ending) := by
  have present := f.present
  obtain ⟨length,fine⟩ := complete
  have head := Format.Complete.take_head ⟨length,fine⟩ rest
  have all : (field ++ rest).length = field.length + rest.length := length_append
  conv => lhs; unfold parse
  rw [head,all,if_neg (by omega),if_neg (by omega),if_neg (by simp [fine]),if_neg (by omega),←length,drop_left,take_left]

theorem parse_complete {formats : List (Format α)} {bytes : List α} {fields : List (List α)} {ending : Ending}
    (reads : Reads formats bytes fields ending) : parse formats bytes = some (fields,ending) := by
  induction reads with
  | clean formats => exact parse_nil formats
  | bare formats bare length fine tail => exact parse_bare formats bare length fine tail
  | @extra rest some_ =>
    cases rest with
    | nil => exact absurd rfl some_
    | cons byte rest => rfl
  | field complete _ ih =>
    rw [parse_field _ complete,ih]
    rfl

theorem parse_sound {formats : List (Format α)} : ∀ {bytes : List α} {fields : List (List α)} {ending : Ending},
    parse formats bytes = some (fields,ending) → Reads formats bytes fields ending := by
  induction formats with
  | nil =>
    intro bytes fields ending parsed
    cases bytes with
    | nil =>
      cases parsed
      exact .clean []
    | cons byte rest =>
      cases parsed
      exact .extra (cons_ne_nil byte rest)
  | cons f formats ih =>
    intro bytes fields ending parsed
    unfold parse at parsed
    split at parsed
    · rename_i empty
      cases length_eq_zero_iff.mp empty
      cases parsed
      exact .clean _
    split at parsed
    · cases parsed
    rename_i whole
    split at parsed
    · cases parsed
    rename_i fine
    split at parsed
    · rename_i short
      split at parsed
      · rename_i alone
        obtain ⟨bare,length⟩ := alone
        have all : bytes.take f.head = bytes := take_of_length_le (Nat.le_of_eq length)
        rw [all] at fine short
        cases parsed
        exact .bare formats bare length (by simpa using fine) (by omega)
      · cases parsed
    · rename_i long
      obtain ⟨⟨later,ending'⟩,rest,same⟩ := Option.map_eq_some_iff.mp parsed
      cases same
      have complete : f.Complete (bytes.take (f.head + f.tail (bytes.take f.head))) := by
        constructor
        · rw [take_take,Nat.min_eq_left (by omega),length_take,Nat.min_eq_left (by omega)]
        · rw [take_take,Nat.min_eq_left (by omega)]
          simpa using fine
      have read := Reads.field complete (ih rest)
      rwa [take_append_drop] at read

theorem reads_unique {formats : List (Format α)} {bytes : List α} {fields fields' : List (List α)} {ending ending' : Ending}
    (one : Reads formats bytes fields ending) (two : Reads formats bytes fields' ending') :
    fields = fields' ∧ ending = ending' := by
  have same := (parse_complete one).symm.trans (parse_complete two)
  simpa using same

theorem Cut.reads {formats : List (Format α)} {fields : List (List α)} (cut : Cut formats fields) :
    Reads formats fields.flatten fields .clean := by
  induction cut with
  | stop formats => exact .clean formats
  | field complete _ ih => exact .field complete ih

theorem Reads.cut {formats : List (Format α)} {bytes : List α} {fields : List (List α)} {ending : Ending}
    (reads : Reads formats bytes fields ending) (clean : ending = .clean) : Cut formats fields ∧ bytes = fields.flatten := by
  induction reads with
  | clean formats => exact ⟨.stop formats,rfl⟩
  | bare => cases clean
  | extra => cases clean
  | field complete _ ih =>
    obtain ⟨cut,flat⟩ := ih clean
    exact ⟨.field complete cut,by rw [flat]; rfl⟩

theorem Reads.front {formats : List (Format α)} {bytes : List α} {fields : List (List α)} {ending : Ending}
    (reads : Reads formats bytes fields ending) : Cut formats fields ∧ fields.flatten <+: bytes := by
  induction reads with
  | clean formats => exact ⟨.stop formats, nil_prefix⟩
  | bare => exact ⟨.stop _, nil_prefix⟩
  | extra => exact ⟨.stop _, nil_prefix⟩
  | @field f formats field rest fields ending complete _ ih =>
    obtain ⟨cut,front⟩ := ih
    exact ⟨.field complete cut,(prefix_append_right_inj field).mpr front⟩

theorem Cut.length_le {formats : List (Format α)} {fields : List (List α)} (cut : Cut formats fields) :
    fields.length ≤ formats.length := by
  induction cut with
  | stop => exact Nat.zero_le _
  | field _ _ ih => exact Nat.succ_le_succ ih

theorem Cut.complete {formats : List (Format α)} {fields : List (List α)} (cut : Cut formats fields) :
    ∀ {i : Nat} {f : Format α} {field : List α}, formats[i]? = some f → fields[i]? = some field → f.Complete field := by
  induction cut with
  | stop =>
    intro i f field _ missing
    cases missing
  | field complete _ ih =>
    intro i f field hereFormat hereField
    cases i with
    | zero =>
      cases hereFormat
      cases hereField
      exact complete
    | succ i => exact ih hereFormat hereField

end Rtl8852au.Fields
