import Crown.Lib.Text

/-! JSON values with the typed accesses of the vendored `libs/json.hpp` that the
server makes, and the exceptions they raise. -/
namespace Crown

open Lib

inductive Json where
  | null
  | boolean (b : Bool)
  | integer (n : Int)
  | float (x : Rat)
  | string (s : Text)
  | array (items : List Json)
  | object (members : List (Text × Json))

inductive Exception where
  | parseError (what : Text)
  | outOfRange (what : Text)
  | typeError (what : Text)
  deriving DecidableEq

def Exception.what : Exception → Text
  | .parseError what | .outOfRange what | .typeError what => what

/-- A sequence of accesses succeeds when every access does. -/
theorem bind_eq_ok {x : Except ε α} {f : α → Except ε β} :
    (x >>= f) = .ok b ↔ ∃ a, x = .ok a ∧ f a = .ok b := by
  cases x <;> simp [bind, Except.bind]

/-- Two's complement reduction to a 32-bit signed integer. -/
def toInt32 (n : Int) : Int := n.bmod (2 ^ 32)

def toUInt32 (n : Int) : UInt32 := UInt32.ofNat (n % 2 ^ 32).toNat

theorem toInt32_eq_self (low : -2 ^ 31 ≤ n) (high : n < 2 ^ 31) : toInt32 n = n := by
  unfold toInt32
  exact Int.bmod_eq_of_le (by simpa using low) (by simpa using high)

theorem toInt32_range (n : Int) : -2 ^ 31 ≤ toInt32 n ∧ toInt32 n < 2 ^ 31 := by
  have low := Int.le_bmod (x := n) (m := 2 ^ 32) (by decide)
  have high := Int.bmod_lt (x := n) (m := 2 ^ 32) (by decide)
  constructor
  · simpa [toInt32] using low
  · simpa [toInt32] using high

theorem toInt32_emod (n : Int) : toInt32 n % 2 ^ 32 = n % 2 ^ 32 := by
  show n.bmod (2 ^ 32) % ((2 ^ 32 : Nat) : Int) = n % ((2 ^ 32 : Nat) : Int)
  exact Int.bmod_emod

/-- A number that fits is read unsigned as it was before it was read signed. -/
theorem toUInt32_toInt32 {n : Nat} (fits : n < 2 ^ 32) : (toUInt32 (toInt32 n)).toNat = n := by
  have small : (n : Int) % 2 ^ 32 = n := by omega
  rw [toUInt32, toInt32_emod, small, Int.toNat_natCast, UInt32.toNat_ofNat']
  exact Nat.mod_eq_of_lt fits

/-- No two unsigned numbers are read as one signed number. -/
theorem toInt32_toNat_inj {a b : UInt32} (same : toInt32 a.toNat = toInt32 b.toNat) : a = b := by
  have left := toUInt32_toInt32 a.toNat_lt
  have right := toUInt32_toInt32 b.toNat_lt
  rw [same] at left
  exact UInt32.toNat_inj.mp (left.symm.trans right)

namespace Json

def typeName : Json → Text
  | .null => lit "null"
  | .boolean _ => lit "boolean"
  | .integer _ | .float _ => lit "number"
  | .string _ => lit "string"
  | .array _ => lit "array"
  | .object _ => lit "object"

def isObject : Json → Bool
  | .object _ => true
  | _ => false

def isArray : Json → Bool
  | .array _ => true
  | _ => false

def isNumber : Json → Bool
  | .integer _ | .float _ => true
  | _ => false

/-- `find`: only objects have members. -/
def find (key : Text) : Json → Option Json
  | .object members => (members.find? (·.1 = key)).map (·.2)
  | _ => none

/-- In an object whose keys differ every member is found under its key. -/
theorem find_object {members : List (Text × Json)} (distinct : (members.map (·.1)).Nodup) :
    ∀ member ∈ members, (Json.object members).find member.1 = some member.2 := by
  induction members with
  | nil => simp
  | cons first rest ih =>
    rw [List.map_cons, List.nodup_cons] at distinct
    intro member present
    rcases List.mem_cons.mp present with rfl | later
    · simp [find]
    · have other : first.1 ≠ member.1 := by
        intro same
        exact distinct.1 (same ▸ List.mem_map_of_mem later)
      have found := ih distinct.2 member later
      simpa [find, other] using found

/-- `type_error` 302, the failure of `get`. -/
def wrongType (expected : Text) (j : Json) : Exception :=
  .typeError (lit "[json.exception.type_error.302] type must be " ++ expected ++ lit ", but is " ++
    j.typeName)

def getString : Json → Except Exception Text
  | .string s => .ok s
  | j => .error (wrongType (lit "string") j)

def getBool : Json → Except Exception Bool
  | .boolean b => .ok b
  | j => .error (wrongType (lit "boolean") j)

/-- `get` at an arithmetic type, before the reduction to its width. -/
def getNumber : Json → Except Exception Int
  | .integer n => .ok n
  | .float x => .ok (x.num.tdiv x.den)
  | .boolean b => .ok (if b then 1 else 0)
  | j => .error (wrongType (lit "number") j)

def getInt (j : Json) : Except Exception Int := j.getNumber.map toInt32

def getUInt32 (j : Json) : Except Exception UInt32 := j.getNumber.map toUInt32

/-- `value(key, default)`: `type_error` 306 outside objects, the stored member or
the default inside. -/
def value (get : Json → Except Exception α) (key : Text) (default : α) (j : Json) :
    Except Exception α :=
  if j.isObject then
    match j.find key with
    | some stored => get stored
    | none => .ok default
  else .error (.typeError
    (lit "[json.exception.type_error.306] cannot use value() with " ++ j.typeName))

def valueString (key : Text) (j : Json) : Except Exception Text := j.value getString key []

/-- `json_or` of `server.cpp`: a missing or null member gives the default. -/
def jsonOr (get : Json → Except Exception α) (key : Text) (default : α) (j : Json) :
    Except Exception α :=
  match j.find key with
  | none | some .null => .ok default
  | some stored => get stored

/-- `contains(key)` with a value that is not null. -/
def present (key : Text) (j : Json) : Option Json :=
  match j.find key with
  | none | some .null => none
  | some stored => some stored

theorem getString_eq_ok (j : Json) : j.getString = .ok s ↔ j = .string s := by
  cases j <;> simp [getString]

/-- `value` at type string succeeds on an object whose member is a string or absent. -/
theorem valueString_eq_ok {j : Json} : j.valueString key = .ok s ↔ j.isObject = true ∧
    (j.find key = some (.string s) ∨ j.find key = none ∧ s = []) := by
  unfold valueString value
  cases object : j.isObject with
  | false => simp
  | true =>
    cases found : j.find key with
    | none => simp [eq_comm]
    | some stored => simp [getString_eq_ok]

theorem find_of_valueString {j : Json} (read : j.valueString key = .ok s) (nonempty : s ≠ []) :
    j.find key = some (.string s) := by
  obtain ⟨_, found | ⟨_, rfl⟩⟩ := valueString_eq_ok.mp read
  · exact found
  · exact absurd rfl nonempty

/-- A member that may be read as a string. -/
def StringOrAbsent (key : Text) (j : Json) : Prop :=
  j.isObject = true ∧ ∀ stored, j.find key = some stored → ∃ s, stored = .string s

theorem valueString_isOk_iff (j : Json) :
    (∃ s, j.valueString key = .ok s) ↔ StringOrAbsent key j := by
  simp only [valueString_eq_ok, StringOrAbsent]
  cases j.find key <;> simp

/-- A member that may be read as a number. -/
def NumberOrAbsent (key : Text) (j : Json) : Prop :=
  j.isObject = true ∧
    ∀ stored, j.find key = some stored → stored.isNumber = true ∨ ∃ b, stored = .boolean b

theorem getNumber_isOk_iff (j : Json) :
    (∃ n, j.getNumber = .ok n) ↔ j.isNumber = true ∨ ∃ b, j = .boolean b := by
  cases j <;> simp [getNumber, isNumber]

theorem valueInt_isOk_iff (j : Json) (default : Int) :
    (∃ n, j.value getInt key default = .ok n) ↔ NumberOrAbsent key j := by
  unfold value NumberOrAbsent
  cases object : j.isObject with
  | false => simp
  | true =>
    cases found : j.find key with
    | none => simp
    | some stored =>
      simp only [if_true, Option.some.injEq, forall_eq', true_and, ← getNumber_isOk_iff]
      cases read : stored.getNumber <;> simp [getInt, read, Except.map]

/-- A string member, or nothing. -/
def text (key : Text) (j : Json) : Text :=
  match j.find key with
  | some (.string s) => s
  | _ => []

theorem valueString_eq_text {j : Json} (readable : StringOrAbsent key j) :
    j.valueString key = .ok (j.text key) := by
  obtain ⟨object, strings⟩ := readable
  unfold text
  cases found : j.find key with
  | none => simp [valueString, value, object, found]
  | some stored =>
    obtain ⟨s, rfl⟩ := strings stored found
    simp [valueString, value, object, found, getString]

end Json
end Crown
