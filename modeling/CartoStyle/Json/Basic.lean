set_option autoImplicit false

/-! # JSON values

The data that everything in this library is decoded from and encoded to. An object is the list of
its members in document order: member order is part of a document, and every operation below says
what it does to it. Whole numbers and floats are kept apart, because a document that says `1.0`
is not written back as `1`.

A value read from text is `Json.WellFormed`: no object repeats a key, and whole numbers fit a
machine word. -/

namespace CartoStyle

/-! ## Numbers -/

-- Powers are those of the core library, also where monoids have powers too.
attribute [default_instance (high + 1)] instPowNat

/-- A JSON number. Numerals without fraction and exponent that fit a machine word are whole
    numbers; every other numeral is a float. -/
inductive Number where
  | integer (value : Int)
  | float (value : Float)
  deriving DecidableEq, Repr, Inhabited

namespace Number

/-- The number as a float, rounded to nearest when it is a large whole number. -/
def toFloat : Number → Float
  | .integer n => Float.ofInt n
  | .float x => x

/-- The whole numbers that a numeral denotes exactly: those of a signed or an unsigned
    64-bit word. -/
def InWord (n : Int) : Prop := -2 ^ 63 ≤ n ∧ n < 2 ^ 64

instance (n : Int) : Decidable (InWord n) := inferInstanceAs (Decidable (_ ∧ _))

end Number

/-! ## Values -/

/-- A JSON value; the members of an object are listed in document order. -/
inductive Json where
  | null
  | bool (value : Bool)
  | number (value : Number)
  | string (value : String)
  | array (items : List Json)
  | object (members : List (String × Json))
  deriving Inhabited

/-! ## Equality -/

namespace Json

mutual

/-- Whether two values are equal. -/
def same : Json → Json → Bool
  | .null, .null => true
  | .bool a, .bool b => a == b
  | .number a, .number b => a == b
  | .string a, .string b => a == b
  | .array as, .array bs => sameItems as bs
  | .object as, .object bs => sameMembers as bs
  | _, _ => false

/-- Whether two lists of items are equal. -/
def sameItems : List Json → List Json → Bool
  | [], [] => true
  | a :: as, b :: bs => a.same b && sameItems as bs
  | _, _ => false

/-- Whether two lists of members are equal. -/
def sameMembers : List (String × Json) → List (String × Json) → Bool
  | [], [] => true
  | (k, a) :: as, (l, b) :: bs => k == l && a.same b && sameMembers as bs
  | _, _ => false

end
mutual

theorem same_iff (a b : Json) : a.same b = true ↔ a = b := by
  match a with
  | .array as => cases b <;> simp [same, sameItems_iff as]
  | .object as => cases b <;> simp [same, sameMembers_iff as]
  | .null => cases b <;> simp [same]
  | .bool _ => cases b <;> simp [same]
  | .number _ => cases b <;> simp [same]
  | .string _ => cases b <;> simp [same]

theorem sameItems_iff (as bs : List Json) : sameItems as bs = true ↔ as = bs := by
  match as, bs with
  | [], [] => simp [sameItems]
  | [], _ :: _ => simp [sameItems]
  | _ :: _, [] => simp [sameItems]
  | a :: as, b :: bs => simp [sameItems, same_iff a b, sameItems_iff as bs]

theorem sameMembers_iff (as bs : List (String × Json)) : sameMembers as bs = true ↔ as = bs := by
  match as, bs with
  | [], [] => simp [sameMembers]
  | [], _ :: _ => simp [sameMembers]
  | _ :: _, [] => simp [sameMembers]
  | (k, a) :: as, (l, b) :: bs => simp [sameMembers, same_iff a b, sameMembers_iff as bs]

end

instance : DecidableEq Json := fun a b => decidable_of_iff (a.same b = true) (same_iff a b)

end Json

/-! ## Members of an object

Members are an association list, found by `List.lookup`. The operations keep keys distinct. -/

namespace Members

variable {α : Type}

/-- The keys, in document order. -/
def keys (members : List (String × α)) : List String := members.map Prod.fst

/-- Set `key` to `value`: in place when the key is there, at the end otherwise. -/
def put (key : String) (value : α) : List (String × α) → List (String × α)
  | [] => [(key, value)]
  | (k, v) :: rest => if k = key then (key, value) :: rest else (k, v) :: put key value rest

/-- Set `key` when there is a value, change nothing otherwise. -/
def putSome (key : String) (value : Option α) (members : List (String × α)) :
    List (String × α) :=
  match value with
  | some v => put key v members
  | none => members

/-- The members without `key`. -/
def erase (key : String) (members : List (String × α)) : List (String × α) :=
  members.filter (·.1 != key)

/-- Members from entries in reading order: a repeated key keeps its first place and takes its
    last value. -/
def ofEntries (entries : List (String × α)) : List (String × α) :=
  entries.foldl (fun members entry => put entry.1 entry.2 members) []

/-- The members whose key is in `order`, in that order, then the others in their own order. -/
def arrange (order : List String) (members : List (String × α)) : List (String × α) :=
  order.filterMap (fun key => (members.lookup key).map (key, ·)) ++
    members.filter (fun member => !order.contains member.1)

end Members

namespace Json

/-! ## Views -/

/-- The name of a value's type, as messages write it. -/
def typeName : Json → String
  | .null => "null"
  | .bool _ => "boolean"
  | .number _ => "number"
  | .string _ => "string"
  | .array _ => "array"
  | .object _ => "object"

/-- The member `key` of an object; absent on every other value. -/
def get? (key : String) : Json → Option Json
  | .object members => members.lookup key
  | _ => none

def isNull : Json → Bool
  | .null => true
  | _ => false

def isObject : Json → Bool
  | .object _ => true
  | _ => false

def asString? : Json → Option String
  | .string s => some s
  | _ => none

def asNumber? : Json → Option Number
  | .number n => some n
  | _ => none

def asFloat? : Json → Option Float
  | .number n => some n.toFloat
  | _ => none

def asArray? : Json → Option (List Json)
  | .array items => some items
  | _ => none

def asObject? : Json → Option (List (String × Json))
  | .object members => some members
  | _ => none

/-! ## Building values -/

/-- A count as a whole number. -/
def ofNat (n : Nat) : Json := .number (.integer n)

/-- A float as a value, which what is not finite does not have: that is `null`. -/
def ofFloat (x : Float) : Json := if x.isFinite then .number (.float x) else .null

/-- A value, or `null` in its absence. -/
def ofOption {α : Type} (encode : α → Json) : Option α → Json
  | some a => encode a
  | none => .null

/-- A list of texts. -/
def ofStrings (texts : List String) : Json := .array (texts.map .string)

/-- An array around `core`, with `heads` before it. -/
def wrap (heads : List Json) (core : Json) : Json := .array (heads ++ [core])

/-- `core` in `depth` arrays, each with `heads` in front. -/
def nest (heads : List Json) (core : Json) : Nat → Json
  | 0 => core
  | depth + 1 => wrap heads (nest heads core depth)

/-! ## Well-formed values -/

mutual

/-- No object repeats a key and every whole number fits a machine word. -/
def WellFormed : Json → Prop
  | .number (.integer n) => Number.InWord n
  | .array items => WellFormedItems items
  | .object members => (Members.keys members).Nodup ∧ WellFormedMembers members
  | _ => True

/-- Every item is well formed. -/
def WellFormedItems : List Json → Prop
  | [] => True
  | item :: rest => item.WellFormed ∧ WellFormedItems rest

/-- Every member's value is well formed. -/
def WellFormedMembers : List (String × Json) → Prop
  | [] => True
  | (_, value) :: rest => value.WellFormed ∧ WellFormedMembers rest

end

mutual

/-- How deep arrays and objects nest: `0` for a value that is neither. -/
def depth : Json → Nat
  | .array items => depthItems items + 1
  | .object members => depthMembers members + 1
  | _ => 0

/-- The deepest item. -/
def depthItems : List Json → Nat
  | [] => 0
  | item :: rest => max item.depth (depthItems rest)

/-- The deepest member. -/
def depthMembers : List (String × Json) → Nat
  | [] => 0
  | (_, value) :: rest => max value.depth (depthMembers rest)

end

end Json

end CartoStyle
