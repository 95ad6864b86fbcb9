import Roster.Number.Double

/-!
# Document values

A value is what a JSON document can hold: nothing, a truth value, a whole or floating-point
number, a text, a list, or a map whose entries keep the order in which they were written.
-/

namespace Roster

/-- A document value. -/
inductive Value where
  | null
  | bool (b : Bool)
  | int (i : Int)
  | float (d : Double)
  | str (s : String)
  | list (items : List Value)
  | map (entries : List (String × Value))
  deriving Repr, Inhabited

abbrev Entries := List (String × Value)

namespace Value

mutual

/-- Values are written alike. -/
def beq : Value → Value → Bool
  | .null, .null => true
  | .bool a, .bool b => a == b
  | .int a, .int b => a == b
  | .float a, .float b => a == b
  | .str a, .str b => a == b
  | .list a, .list b => beqItems a b
  | .map a, .map b => beqEntries a b
  | _, _ => false

def beqItems : List Value → List Value → Bool
  | [], [] => true
  | a :: as, b :: bs => beq a b && beqItems as bs
  | _, _ => false

def beqEntries : List (String × Value) → List (String × Value) → Bool
  | [], [] => true
  | (k, a) :: as, (l, b) :: bs => k == l && beq a b && beqEntries as bs
  | _, _ => false

end

mutual

theorem beq_iff_eq : ∀ {a b : Value}, beq a b = true ↔ a = b
  | .null, b => by cases b <;> simp [beq]
  | .bool _, b => by cases b <;> simp [beq]
  | .int _, b => by cases b <;> simp [beq]
  | .float _, b => by cases b <;> simp [beq]
  | .str _, b => by cases b <;> simp [beq]
  | .list as, b => by cases b <;> simp [beq, beqItems_iff_eq]
  | .map as, b => by cases b <;> simp [beq, beqEntries_iff_eq]

theorem beqItems_iff_eq : ∀ {as bs : List Value}, beqItems as bs = true ↔ as = bs
  | [], bs => by cases bs <;> simp [beqItems]
  | a :: as, bs => by
      cases bs with
      | nil => simp [beqItems]
      | cons b bs => simp [beqItems, beq_iff_eq, beqItems_iff_eq]

theorem beqEntries_iff_eq : ∀ {as bs : List (String × Value)}, beqEntries as bs = true ↔ as = bs
  | [], bs => by cases bs <;> simp [beqEntries]
  | (k, a) :: as, bs => by
      cases bs with
      | nil => simp [beqEntries]
      | cons b bs =>
          obtain ⟨l, b⟩ := b
          simp [beqEntries, beq_iff_eq, beqEntries_iff_eq, Prod.ext_iff, and_assoc]

end

instance : BEq Value := ⟨beq⟩

instance : LawfulBEq Value where
  eq_of_beq := beq_iff_eq.1
  rfl := beq_iff_eq.2 rfl

instance : DecidableEq Value := instDecidableEqOfLawfulBEq

/-- Whole number behind a truth value or a whole number. -/
def integral? : Value → Option Int
  | .bool b => some (if b then 1 else 0)
  | .int i => some i
  | _ => none

/-- Scalars are the same when they have the same value: truth values count as 0 and 1, and a
floating-point number equals a whole number of its value. -/
def sameScalar (a b : Value) : Bool :=
  match a, b with
  | .null, .null => true
  | .str s, .str t => s == t
  | .float x, .float y => x.sameValue y
  | .float x, b => b.integral?.any (x.equalsInt ·)
  | a, .float y => a.integral?.any (y.equalsInt ·)
  | a, b => a.integral?.isSome && a.integral? == b.integral?

/-- A value counts as given unless it is null, false, zero, or an empty text, list or map. -/
def isGiven : Value → Bool
  | .null => false
  | .bool b => b
  | .int i => i != 0
  | .float d => !d.isZero
  | .str s => s != ""
  | .list items => !items.isEmpty
  | .map entries => !entries.isEmpty

/-- Value under a key of a map. -/
def get? (v : Value) (key : String) : Option Value :=
  match v with
  | .map entries => entries.lookup key
  | _ => none

/-- The text that a value is, if it is one. -/
def text? : Value → Option String
  | .str s => some s
  | _ => none

/-- Name of the kind of a value, as messages give it. -/
def kindName : Value → String
  | .null => "NoneType"
  | .bool _ => "bool"
  | .int _ => "int"
  | .float _ => "float"
  | .str _ => "str"
  | .list _ => "list"
  | .map _ => "dict"

end Value

namespace Entries

/-- Set a key: in place when it is there, else at the end. -/
def set {α : Type} (entries : List (String × α)) (key : String) (value : α) : List (String × α) :=
  match entries with
  | [] => [(key, value)]
  | (k, v) :: rest => if k == key then (key, value) :: rest else (k, v) :: set rest key value

def setAll {α : Type} (entries changes : List (String × α)) : List (String × α) :=
  changes.foldl (fun acc change => set acc change.1 change.2) entries

def erase {α : Type} (entries : List (String × α)) (key : String) : List (String × α) :=
  entries.filter fun entry => entry.1 != key

def keys {α : Type} (entries : List (String × α)) : List String :=
  entries.map Prod.fst

def has {α : Type} (entries : List (String × α)) (key : String) : Bool :=
  entries.any fun entry => entry.1 == key

variable {α : Type}

/-- A key that was set is found with its new value. -/
@[simp] theorem lookup_set_self (entries : List (String × α)) (key : String) (value : α) :
    (set entries key value).lookup key = some value := by
  induction entries with
  | nil => simp [set]
  | cons entry rest ih =>
      obtain ⟨k, v⟩ := entry
      by_cases hk : k = key
      · simp [set, hk]
      · have hk' : (key == k) = false := by simpa using fun e => hk e.symm
        simp [set, List.lookup_cons, hk, hk', ih]

/-- Setting a key leaves the other keys alone. -/
theorem lookup_set_of_ne (entries : List (String × α)) {key other : String} (value : α)
    (h : other ≠ key) : (set entries key value).lookup other = entries.lookup other := by
  induction entries with
  | nil =>
      have h' : (other == key) = false := by simpa using h
      simp [set, List.lookup_cons, h']
  | cons entry rest ih =>
      obtain ⟨k, v⟩ := entry
      by_cases hk : k = key
      · subst hk
        have h' : (other == k) = false := by simpa using h
        simp [set, List.lookup_cons, h']
      · by_cases ho : other = k
        · subst ho
          simp [set, hk]
        · have ho' : (other == k) = false := by simpa using ho
          simp [set, List.lookup_cons, hk, ho', ih]

end Entries
end Roster
