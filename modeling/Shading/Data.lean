/-!
Data: values of numbers, texts, lists and records, in which results are exchanged.
-/

namespace Shading

inductive Data where
  | null
  | bool (value : Bool)
  | number (value : Nat)
  | text (value : String)
  | list (items : List Data)
  | record (fields : List (String × Data))
deriving Inhabited

namespace Data

def field? (d : Data) (key : String) : Option Data :=
  match d with
  | record fields => fields.lookup key
  | _             => none

def bool? : Data → Option Bool
  | bool value => some value
  | _          => none

def number? : Data → Option Nat
  | number value => some value
  | _            => none

def text? : Data → Option String
  | text value => some value
  | _          => none

def list? : Data → Option (List Data)
  | list items => some items
  | _          => none

def ofOption (f : α → Data) : Option α → Data
  | some a => f a
  | none   => null

def optional? (d : Data) (key : String) (read : Data → Option α) : Option (Option α) :=
  match d.field? key with
  | none | some null => some none
  | some value       => (read value).map some

def items? (d : Data) (read : Data → Option α) : Option (List α) := do
  (← d.list?).mapM read

theorem sizeOf_lt_of_lookup {fields : List (String × Data)} {key : String} {value : Data}
    (h : fields.lookup key = some value) : sizeOf value < sizeOf fields := by
  induction fields with
  | nil => simp at h
  | cons field fields ih =>
    obtain ⟨k, v⟩ := field
    rw [List.lookup_cons] at h
    simp only [List.cons.sizeOf_spec, Prod.mk.sizeOf_spec]
    split at h
    · cases h
      omega
    · have := ih h
      omega

theorem sizeOf_lt_of_field? {d : Data} {key : String} {value : Data}
    (h : d.field? key = some value) : sizeOf value < sizeOf d := by
  cases d with
  | record fields =>
    have := sizeOf_lt_of_lookup (show fields.lookup key = some value from h)
    simp only [record.sizeOf_spec]
    omega
  | _ => simp [field?] at h

end Data
end Shading
