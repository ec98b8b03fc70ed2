import DeviceTester.Connection.Options

/-!
# JSON values

What the program uses of `nlohmann::json`: reading and writing members and
elements, and the conversions of `get`. The text format is left to a parameter.
-/
namespace DeviceTester.Config

open DeviceTester.Connection

/-- A number is `floating` when its text has a fraction or an exponent. -/
inductive Json where
  | null
  | boolean (b : Bool)
  | integer (n : Int)
  | floating (x : Rat)
  | string (s : Bytes)
  | array (elements : List Json)
  | object (members : List (Bytes × Json))

/-- How a use of a value fails: an exception, `std::out_of_range` of the asio option
classes among them, or an assertion. -/
inductive Failure where
  | parseError
  | typeError
  | outOfRange
  | assertion
  deriving DecidableEq, Repr

/-- `>>`, which reads nothing from a text that it cannot parse, and `<<`, which has
written some bytes when a string that is not UTF-8 makes it throw. -/
structure JsonText where
  parse : Bytes → Option Json
  dump : Json → Bytes × Bool

/-- No text is JSON. -/
def noJson : JsonText := ⟨fun _ => none, fun _ => ([], true)⟩

/-- Writing a member of a `std::map`, whose keys are in the order of their bytes. -/
def setMember (key : Bytes) (value : Json) : List (Bytes × Json) → List (Bytes × Json)
  | [] => [(key, value)]
  | (k, v) :: rest =>
      if k = key then (key, value) :: rest
      else if key < k then (key, value) :: (k, v) :: rest
      else (k, v) :: setMember key value rest

theorem lookup_member (key k : Bytes) (v : Json) (members : List (Bytes × Json)) :
    ((k, v) :: members).lookup key = if key = k then some v else members.lookup key := by
  rw [List.lookup_cons]
  by_cases h : key = k
  · rw [if_pos h, beq_iff_eq.mpr h]
  · rw [if_neg h, beq_eq_false_iff_ne.mpr h]

theorem lookup_setMember (key key' : Bytes) (value : Json) (members : List (Bytes × Json)) :
    (setMember key value members).lookup key' =
      if key' = key then some value else members.lookup key' := by
  induction members with
  | nil => exact lookup_member key' key value []
  | cons m rest ih =>
    obtain ⟨k, v⟩ := m
    rw [setMember, lookup_member]
    by_cases hk : k = key
    · rw [if_pos hk, lookup_member, hk]
      by_cases h : key' = key
      · rw [if_pos h, if_pos h]
      · rw [if_neg h, if_neg h, if_neg h]
    · rw [if_neg hk]
      by_cases hlt : key < k
      · rw [if_pos hlt, lookup_member, lookup_member]
      · rw [if_neg hlt, lookup_member, ih]
        by_cases h : key' = k
        · have hne : key' ≠ key := fun he => hk (h.symm.trans he)
          rw [if_pos h, if_neg hne, if_pos h]
        · rw [if_neg h, if_neg h]

namespace Json

/-- An object whose members are written one after the other. -/
def ofMembers (members : List (Bytes × Json)) : Json :=
  object (members.foldl (fun written m => setMember m.1 m.2 written) [])

def contains (key : Bytes) : Json → Bool
  | object members => (members.lookup key).isSome
  | _ => false

/-- `at`, which throws on a missing key. -/
def atKey (key : Bytes) : Json → Except Failure Json
  | object members =>
      match members.lookup key with
      | some value => .ok value
      | none => .error .outOfRange
  | _ => .error .typeError

/-- `operator[]` on a constant, which asserts that the key is there. -/
def constSubscript (key : Bytes) : Json → Except Failure Json
  | object members =>
      match members.lookup key with
      | some value => .ok value
      | none => .error .assertion
  | _ => .error .typeError

/-- `push_back`, which makes an array of `null`. -/
def pushBack (j value : Json) : Except Failure Json :=
  match j with
  | null => .ok (array [value])
  | array elements => .ok (array (elements ++ [value]))
  | _ => .error .typeError

/-- `j[key].push_back(value)`. `operator[]` makes an object of `null`, and the member
where it is missing. -/
def pushMember (j : Json) (key : Bytes) (value : Json) : Except Failure Json :=
  match j with
  | null => do
      let member ← null.pushBack value
      return object [(key, member)]
  | object members => do
      let member ← ((members.lookup key).getD null).pushBack value
      return object (setMember key member members)
  | _ => .error .typeError

def getString : Json → Except Failure Bytes
  | string s => .ok s
  | _ => .error .typeError

/-- The value that `get` casts to an enumeration. -/
def getEnum : Json → Except Failure Int
  | integer n => .ok n
  | floating x => .ok (Int.tdiv x.num x.den)
  | _ => .error .typeError

/-- The value that `get` casts to an arithmetic type, which takes booleans as well. -/
def getArithmetic : Json → Except Failure Int
  | boolean b => .ok (if b then 1 else 0)
  | j => j.getEnum

end Json

end DeviceTester.Config
