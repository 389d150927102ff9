import Accession.Binary64.Basic
set_option autoImplicit false

namespace Accession.Json

inductive Number where
  | int (n : Int)
  | float (negative : Bool) (magnitude : Binary64.Magnitude)
deriving DecidableEq, Repr

inductive Value where
  | null
  | bool (b : Bool)
  | num (n : Number)
  | str (s : String)
  | arr (items : List Value)
  | obj (members : List (String × Value))
deriving Repr, Inhabited

abbrev Members := List (String × Value)

namespace Members

def get? (members : Members) (key : String) : Option Value :=
  (members.find? (fun m => m.1 == key)).map (·.2)

def contains (members : Members) (key : String) : Bool :=
  members.any (fun m => m.1 == key)

def insert (key : String) (value : Value) : Members → Members
  | [] => [(key, value)]
  | m :: rest => if m.1 == key then (key, value) :: rest else m :: insert key value rest

def swapRemove (key : String) : Members → Members
  | [] => []
  | m :: rest =>
    if m.1 == key then
      match rest.getLast? with
      | none => []
      | some last => last :: rest.dropLast
    else m :: swapRemove key rest

def keys (members : Members) : List String :=
  members.map (·.1)

@[simp] theorem get?_nil (key : String) : get? [] key = none := rfl

theorem get?_cons (m : String × Value) (rest : Members) (key : String) :
    get? (m :: rest) key = if m.1 = key then some m.2 else get? rest key := by
  by_cases h : m.1 = key <;> simp [get?, h]

theorem get?_insert_self (key : String) (value : Value) (members : Members) :
    get? (insert key value members) key = some value := by
  induction members with
  | nil => simp [insert, get?_cons]
  | cons m rest ih =>
    by_cases h : m.1 = key
    · simp [insert, h, get?_cons]
    · simp [insert, h, get?_cons, ih]

theorem get?_insert_of_ne {key other : String} (value : Value) (members : Members)
    (h : key ≠ other) : get? (insert key value members) other = get? members other := by
  induction members with
  | nil => simp [insert, get?_cons, h]
  | cons m rest ih =>
    by_cases hm : m.1 = key
    · have hne : m.1 ≠ other := fun he => h (hm.symm.trans he)
      simp [insert, hm, get?_cons, h]
    · simp [insert, hm, get?_cons, ih]

end Members

namespace Value

def isNull : Value → Bool
  | .null => true
  | _ => false

def asString? : Value → Option String
  | .str s => some s
  | _ => none

def asArray? : Value → Option (List Value)
  | .arr items => some items
  | _ => none

def asMembers? : Value → Option Members
  | .obj members => some members
  | _ => none

def asInt64? : Value → Option Int
  | .num (.int n) =>
    if -9223372036854775808 ≤ n && n ≤ 9223372036854775807 then some n else none
  | _ => none

def member? (v : Value) (key : String) : Option Value :=
  v.asMembers?.bind (Members.get? · key)

end Value

end Accession.Json
