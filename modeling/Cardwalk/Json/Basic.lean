/-!
# JSON values

A value keeps the order of its members.  A number is either a whole number
that fits 64 bits or a floating-point number; the two are never equal, and
each is written in its own way.
-/

set_option autoImplicit false

namespace Cardwalk

inductive Json.Number where
  | int (i : Int)
  | float (x : Float)
deriving Repr, BEq, Inhabited

inductive Json where
  | null
  | bool (b : Bool)
  | number (n : Json.Number)
  | string (s : String)
  | array (items : List Json)
  | object (members : List (String × Json))
deriving Repr, BEq, Inhabited

namespace Json

def ofInt (i : Int) : Json := .number (.int i)

def ofNat (n : Nat) : Json := .number (.int n)

def ofFloat (x : Float) : Json := .number (.float x)

instance : Coe String Json := ⟨.string⟩

instance : Coe Bool Json := ⟨.bool⟩

def ofOption {α : Type} (f : α → Json) : Option α → Json
  | none => .null
  | some a => f a

end Json

abbrev Members := List (String × Json)

namespace Members

def get? (key : String) : Members → Option Json
  | [] => none
  | (k, v) :: rest => if k = key then some v else get? key rest

def contains (key : String) (ms : Members) : Bool := (ms.get? key).isSome

def keys (ms : Members) : List String := ms.map Prod.fst

/-- A new key goes to the end; a known key keeps its place and takes the
new value. -/
def put (key : String) (value : Json) : Members → Members
  | [] => [(key, value)]
  | (k, v) :: rest =>
    if k = key then (k, value) :: rest else (k, v) :: put key value rest

def putNew (ms : Members) (key : String) (value : Json) : Members :=
  if ms.contains key then ms else ms ++ [(key, value)]

def ofList (ms : List (String × Json)) : Members :=
  ms.foldl (fun acc m => put m.1 m.2 acc) []

theorem get?_put (key key' : String) (v : Json) (ms : Members) :
    (put key v ms).get? key' = if key = key' then some v else ms.get? key' := by
  induction ms with
  | nil => simp [put, get?]
  | cons m rest ih =>
    obtain ⟨k, w⟩ := m
    by_cases h : k = key
    · subst h
      by_cases h' : k = key' <;> simp [put, get?, h']
    · by_cases h' : k = key'
      · subst h'
        have : ¬ key = k := fun e => h e.symm
        simp [put, get?, h, this]
      · simp [put, get?, h, h', ih]

theorem get?_eq_none_iff {key : String} {ms : Members} :
    ms.get? key = none ↔ key ∉ ms.keys := by
  induction ms with
  | nil => simp [get?, keys]
  | cons m rest ih =>
    obtain ⟨k, w⟩ := m
    by_cases h : k = key
    · subst h
      simp [get?, keys]
    · have h' : ¬ key = k := fun e => h e.symm
      simp only [get?, h, if_false, ih, keys, List.map_cons, List.mem_cons, h', false_or]

theorem put_of_not_mem {key : String} {v : Json} {ms : Members}
    (h : key ∉ ms.keys) : put key v ms = ms ++ [(key, v)] := by
  induction ms with
  | nil => rfl
  | cons m rest ih =>
    obtain ⟨k, w⟩ := m
    simp only [keys, List.map_cons, List.mem_cons, not_or] at h
    have hk : ¬ k = key := fun e => h.1 e.symm
    simp [put, hk, ih h.2]

end Members

namespace Json

def get? (key : String) : Json → Option Json
  | .object ms => Members.get? key ms
  | _ => none

def item? (index : Nat) : Json → Option Json
  | .array items => items[index]?
  | _ => none

def string? : Json → Option String
  | .string s => some s
  | _ => none

def isObject : Json → Bool
  | .object _ => true
  | _ => false

def Number.toFloat : Number → Float
  | .int i => Float.ofInt i
  | .float x => x

def float? : Json → Option Float
  | .number n => some n.toFloat
  | _ => none

end Json

end Cardwalk
