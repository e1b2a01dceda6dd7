import Replay.Failure

/-!
Numbers that a name is given to. A closed enumeration refuses a number without a name; an open one
keeps it, because newer producers add numbers.
-/

namespace Replay

class Enumeration (α : Type) where
  title : String
  ofValue? : Int → Option α
  value : α → Int
  name : α → String

/-- The title of an open enumeration and its named numbers. -/
structure Vocabulary where
  title : String
  names : List (Int × String)

/-- A number of an open enumeration, named or not. -/
structure Code (vocabulary : Vocabulary) where
  value : Int
deriving DecidableEq

namespace Code

variable {vocabulary : Vocabulary}

def name? (code : Code vocabulary) : Option String :=
  vocabulary.names.lookup code.value

def isKnown (code : Code vocabulary) : Bool :=
  code.name?.isSome

def name (code : Code vocabulary) : String :=
  code.name?.getD s!"UNKNOWN_{code.value}"

/-- Zero on the wire means that there is no code. -/
def optional (value : Int) : Option (Code vocabulary) :=
  if value = 0 then none else some ⟨value⟩

theorem optional_natCast (n : Nat) :
    (optional n : Option (Code vocabulary)) = if n = 0 then none else some ⟨n⟩ := by
  by_cases h : n = 0
  · rw [optional, if_pos (Int.natCast_eq_zero.mpr h), if_pos h]
  · rw [optional, if_neg fun hn => h (Int.natCast_eq_zero.mp hn), if_neg h]

end Code

instance (vocabulary : Vocabulary) : Enumeration (Code vocabulary) where
  title := vocabulary.title
  ofValue? value := some ⟨value⟩
  value := Code.value
  name := Code.name

/-- The member of a closed enumeration that has the number. -/
def memberOf? {α : Type} (members : List α) (value : α → Int) (n : Int) : Option α :=
  members.find? fun a => value a == n

/-- The member that has the number, or the cause that there is none. -/
def Enumeration.read {α : Type} [Enumeration α] (value : Int) : Except Cause α :=
  match Enumeration.ofValue? value with
  | some a => .ok a
  | none => .error (.unnamedValue (Enumeration.title α) value)

/-- Zero on the wire means that there is no member. -/
def Enumeration.readOptional {α : Type} [Enumeration α] (value : Int) : Except Cause (Option α) :=
  if value = 0 then .ok none else some <$> Enumeration.read value

end Replay
