import Peanut.Library.OrderedMap
import Peanut.Text

/-!
# JSON values as `serde_json` keeps them

`serde_json::Value` with its three number representations and with objects as
maps in key order.  A stored `*_json` column always holds the text that
`serde_json::to_string` produced, and reading it back is `serde_json::from_str`
of that text; since decoding undoes encoding the model stores the decoded value
in the column, and the text never appears.
-/

namespace Peanut

/-- `serde_json::Number`: a non-negative integer, a negative one, or a finite
    double given by its bits. -/
inductive Number where
  | posInt (n : UInt64)
  | negInt (n : Int64)
  | float (bits : UInt64)
deriving DecidableEq, Repr

/-- `Number::from` of an `i64`. -/
def Number.ofInt (n : Int) : Number :=
  if 0 ≤ n then .posInt (UInt64.ofNat n.toNat) else .negInt (Int64.ofInt n)

/-- `Number::as_i64` succeeds. -/
def Number.isI64 : Number → Bool
  | .posInt n => decide (n.toNat < 2 ^ 63)
  | .negInt _ => true
  | .float _ => false

/-- `serde_json::Value`. -/
inductive Value where
  | null
  | bool (b : Bool)
  | number (n : Number)
  | string (s : String)
  | array (items : List Value)
  | object (fields : List (String × Value))
deriving Repr, Inhabited

namespace Value

-- The derived `DecidableEq` does not reach through the nested lists.
mutual

def decEq : (a b : Value) → Decidable (a = b)
  | .null, .null => isTrue rfl
  | .bool a, .bool b =>
      match instDecidableEqBool a b with
      | isTrue h => isTrue (h ▸ rfl)
      | isFalse h => isFalse fun heq => h (Value.bool.inj heq)
  | .number a, .number b =>
      match instDecidableEqNumber a b with
      | isTrue h => isTrue (h ▸ rfl)
      | isFalse h => isFalse fun heq => h (Value.number.inj heq)
  | .string a, .string b =>
      match String.decEq a b with
      | isTrue h => isTrue (h ▸ rfl)
      | isFalse h => isFalse fun heq => h (Value.string.inj heq)
  | .array a, .array b =>
      match decEqItems a b with
      | isTrue h => isTrue (h ▸ rfl)
      | isFalse h => isFalse fun heq => h (Value.array.inj heq)
  | .object a, .object b =>
      match decEqFields a b with
      | isTrue h => isTrue (h ▸ rfl)
      | isFalse h => isFalse fun heq => h (Value.object.inj heq)
  | .null, .bool _ | .null, .number _ | .null, .string _ | .null, .array _ | .null, .object _
  | .bool _, .null | .bool _, .number _ | .bool _, .string _ | .bool _, .array _
  | .bool _, .object _ | .number _, .null | .number _, .bool _ | .number _, .string _
  | .number _, .array _ | .number _, .object _ | .string _, .null | .string _, .bool _
  | .string _, .number _ | .string _, .array _ | .string _, .object _ | .array _, .null
  | .array _, .bool _ | .array _, .number _ | .array _, .string _ | .array _, .object _
  | .object _, .null | .object _, .bool _ | .object _, .number _ | .object _, .string _
  | .object _, .array _ => isFalse (by intro h; cases h)

def decEqItems : (a b : List Value) → Decidable (a = b)
  | [], [] => isTrue rfl
  | [], _ :: _ => isFalse (by intro h; cases h)
  | _ :: _, [] => isFalse (by intro h; cases h)
  | x :: xs, y :: ys =>
      match decEq x y with
      | isFalse h => isFalse fun heq => h (List.cons.inj heq).1
      | isTrue hx =>
          match decEqItems xs ys with
          | isTrue hxs => isTrue (hx ▸ hxs ▸ rfl)
          | isFalse h => isFalse fun heq => h (List.cons.inj heq).2

def decEqFields : (a b : List (String × Value)) → Decidable (a = b)
  | [], [] => isTrue rfl
  | [], _ :: _ => isFalse (by intro h; cases h)
  | _ :: _, [] => isFalse (by intro h; cases h)
  | (k, x) :: xs, (l, y) :: ys =>
      match String.decEq k l with
      | isFalse h => isFalse fun heq => h (Prod.mk.inj (List.cons.inj heq).1).1
      | isTrue hk =>
          match decEq x y with
          | isFalse h => isFalse fun heq => h (Prod.mk.inj (List.cons.inj heq).1).2
          | isTrue hx =>
              match decEqFields xs ys with
              | isTrue hxs => isTrue (hk ▸ hx ▸ hxs ▸ rfl)
              | isFalse h => isFalse fun heq => h (List.cons.inj heq).2

end

instance : DecidableEq Value := decEq

/-- `Value::as_str`. -/
def asStr : Value → Option String
  | .string s => some s
  | _ => none

/-- `Value::as_i64().is_some()`. -/
def isI64 : Value → Bool
  | .number n => n.isI64
  | _ => false

/-- `as_f64`, `as_i64` or `as_u64` succeeds: any number does. -/
def isNumber : Value → Bool
  | .number _ => true
  | _ => false

/-- `Value::is_boolean`. -/
def isBoolean : Value → Bool
  | .bool _ => true
  | _ => false

/-- `Value::as_array`. -/
def asArray : Value → Option (List Value)
  | .array items => some items
  | _ => none

/-- `Value::get` with a key. -/
def member : Value → String → Option Value
  | .object m, key => m.lookup key
  | _, _ => none

end Value

/-- `serde_json::Map<String, Value>`: entries in key order. -/
abbrev JsonMap := List (String × Value)

/-- `Map::insert`. -/
def JsonMap.insert (m : JsonMap) (k : String) (v : Value) : JsonMap := OrderedMap.insert strLt m k v

/-- `Map::get`. -/
def JsonMap.get? (m : JsonMap) (k : String) : Option Value := m.lookup k

/-- `Map::remove`. -/
def JsonMap.remove (m : JsonMap) (k : String) : JsonMap := OrderedMap.erase m k

theorem JsonMap.sorted_insert {m : JsonMap} (h : OrderedMap.Sorted strLt m) (k : String)
    (v : Value) : OrderedMap.Sorted strLt (m.insert k v) :=
  h.insert strLt_trans strLt_antisymm k v

theorem JsonMap.ext_of_sorted {m n : JsonMap} (hm : OrderedMap.Sorted strLt m)
    (hn : OrderedMap.Sorted strLt n) (h : ∀ k, m.get? k = n.get? k) : m = n :=
  hm.ext hn strLt_trans strLt_irrefl h

/-- `BTreeMap<String, β>`: entries in strictly increasing key order. -/
structure BTreeMap (β : Type) where
  entries : List (String × β)
  sorted : OrderedMap.Sorted strLt entries

namespace BTreeMap

variable {β : Type}

/-- `BTreeMap::get`. -/
def get? (m : BTreeMap β) (k : String) : Option β := m.entries.lookup k

/-- `BTreeMap::contains_key`. -/
def containsKey (m : BTreeMap β) (k : String) : Bool := OrderedMap.contains m.entries k

theorem nodup_keys (m : BTreeMap β) : (OrderedMap.keys m.entries).Nodup :=
  m.sorted.nodup strLt_irrefl

theorem get?_of_mem (m : BTreeMap β) {k : String} {v : β} (h : (k, v) ∈ m.entries) :
    m.get? k = some v :=
  OrderedMap.lookup_of_mem m.nodup_keys h

theorem mem_of_get? (m : BTreeMap β) {k : String} {v : β} (h : m.get? k = some v) :
    (k, v) ∈ m.entries :=
  OrderedMap.mem_of_lookup h

theorem containsKey_iff (m : BTreeMap β) {k : String} :
    m.containsKey k = true ↔ ∃ v, m.get? k = some v := by
  rw [containsKey, OrderedMap.contains, Option.isSome_iff_exists]
  rfl

@[ext] theorem ext {m n : BTreeMap β} (h : m.entries = n.entries) : m = n := by
  cases m; cases n; cases h; rfl

instance [DecidableEq β] : DecidableEq (BTreeMap β) := fun m n =>
  decidable_of_iff (m.entries = n.entries) ⟨ext, fun h => h ▸ rfl⟩

/-- The empty map. -/
def empty : BTreeMap β := ⟨[], List.Pairwise.nil⟩

instance : Inhabited (BTreeMap β) := ⟨empty⟩

end BTreeMap

end Peanut
