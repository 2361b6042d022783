/-!
# Texts of values

Reports show values in one notation: a record is `Name { field: value, … }`, a variant with a part
is `Name(part)`, a list is `[a, b]`, a table is `{key: value}`, a missing value is `None`, and a
text stands in quotes.  `describe` is the text of a value.
-/

namespace ContractVM

/-- A type whose values have a text in reports. -/
class Describe (α : Type) where
  describe : α → String

export Describe (describe)

namespace Text

/-- A record with its fields in order. -/
def record (name : String) (fields : List (String × String)) : String :=
  name ++ " \x7b " ++ ", ".intercalate (fields.map fun (field, value) => field ++ ": " ++ value) ++
    " \x7d"

/-- A variant with one part. -/
def variant (name part : String) : String := name ++ "(" ++ part ++ ")"

/-- Items between brackets. -/
def list (items : List String) : String := "[" ++ ", ".intercalate items ++ "]"

/-- Keys with their values. -/
def table (entries : List (String × String)) : String :=
  "\x7b" ++ ", ".intercalate (entries.map fun (key, value) => key ++ ": " ++ value) ++ "\x7d"

end Text

instance {α : Type} [Describe α] : Describe (Option α) where
  describe
    | none => "None"
    | some a => Text.variant "Some" (describe a)

instance : Describe Nat := ⟨fun n => String.ofList (Nat.toDigits 10 n)⟩

instance : Describe Bool := ⟨fun b => if b then "true" else "false"⟩

end ContractVM
