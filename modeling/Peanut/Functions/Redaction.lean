import Peanut.Common
import Peanut.Library.Masking

/-!
# Redaction

`redact_secret_text` and `redact_json_value`: before the result of a function is
stored or answered, every secret is replaced by `***`, one after the other in the
order of their keys, in the strings of the response, in the logs and in the error.
Names of members and numbers stay as they are.
-/

namespace Peanut

open Masking

/-! ### Texts -/

/-- `str::replace`, for a pattern that is not empty. -/
def strReplace (s pattern replacement : String) : String :=
  String.ofList (replaceAll id replacement.toList pattern.toList s.toList)

/-- `secrets` are the entries of the map, in key order. -/
def redactSecretText (text : String) (secrets : List (String × String)) : String :=
  secrets.foldl
    (fun redacted secret =>
      if secret.2.isEmpty then redacted else strReplace redacted secret.2 "***")
    text

def secretWords (secrets : List (String × String)) : List (List Char) :=
  secrets.map fun secret => secret.2.toList

def theMask : List Char := ['*', '*', '*']

theorem toList_redactSecretText (text : String) (secrets : List (String × String)) :
    (redactSecretText text secrets).toList =
      maskAll id theMask (secretWords secrets) text.toList := by
  induction secrets generalizing text with
  | nil => rfl
  | cons secret secrets ih =>
    have hempty : secret.2.toList.isEmpty = secret.2.isEmpty := by
      rw [Bool.eq_iff_iff, List.isEmpty_iff, String.isEmpty_iff, String.toList_eq_nil_iff]
    rw [redactSecretText, List.foldl_cons]
    refine (ih _).trans ?_
    have hcons : secretWords (secret :: secrets) = secret.2.toList :: secretWords secrets := rfl
    rw [hcons, maskAll_cons, hempty]
    split
    · rfl
    · rw [strReplace, String.toList_ofList]
      rfl

def composeLogText (stdout stderr : String) : Option String :=
  let combined := "\n".intercalate ([trim stdout, trim stderr].filter fun value => !value.isEmpty)
  if combined.isEmpty then none else some combined

/-! ### Documents -/

mutual

def redactJsonValue (secrets : List (String × String)) : Value → Value
  | .string text => .string (redactSecretText text secrets)
  | .array items => .array (redactItems secrets items)
  | .object map => .object (redactMembers secrets map)
  | .null => .null
  | .bool b => .bool b
  | .number n => .number n

def redactItems (secrets : List (String × String)) : List Value → List Value
  | [] => []
  | item :: items => redactJsonValue secrets item :: redactItems secrets items

def redactMembers (secrets : List (String × String)) : List (String × Value) → List (String × Value)
  | [] => []
  | (k, v) :: map => (k, redactJsonValue secrets v) :: redactMembers secrets map

end

mutual

/-- The strings of a document, names of members apart. -/
def Value.strings : Value → List String
  | .string text => [text]
  | .array items => Value.itemStrings items
  | .object map => Value.memberStrings map
  | .null | .bool _ | .number _ => []

def Value.itemStrings : List Value → List String
  | [] => []
  | item :: items => item.strings ++ Value.itemStrings items

def Value.memberStrings : List (String × Value) → List String
  | [] => []
  | (_, v) :: map => v.strings ++ Value.memberStrings map

end

mutual

/-- The names of members and the numbers of a document, as they are written. -/
def Value.names (literal : Number → String) : Value → List String
  | .number n => [literal n]
  | .array items => Value.itemNames literal items
  | .object map => Value.memberNames literal map
  | .null | .bool _ | .string _ => []

def Value.itemNames (literal : Number → String) : List Value → List String
  | [] => []
  | item :: items => item.names literal ++ Value.itemNames literal items

def Value.memberNames (literal : Number → String) : List (String × Value) → List String
  | [] => []
  | (k, v) :: map => k :: (v.names literal ++ Value.memberNames literal map)

end

section Documents

variable (secrets : List (String × String)) (literal : Number → String)

mutual

theorem strings_redactJsonValue : ∀ v : Value,
    (redactJsonValue secrets v).strings = v.strings.map fun text => redactSecretText text secrets
  | .string text => rfl
  | .array items => by
      rw [redactJsonValue, Value.strings, Value.strings]
      exact strings_redactItems items
  | .object map => by
      rw [redactJsonValue, Value.strings, Value.strings]
      exact strings_redactMembers map
  | .null | .bool _ | .number _ => rfl

theorem strings_redactItems : ∀ items : List Value,
    Value.itemStrings (redactItems secrets items) =
      (Value.itemStrings items).map fun text => redactSecretText text secrets
  | [] => rfl
  | item :: items => by
      rw [redactItems, Value.itemStrings, Value.itemStrings, List.map_append,
        strings_redactJsonValue item, strings_redactItems items]

theorem strings_redactMembers : ∀ map : List (String × Value),
    Value.memberStrings (redactMembers secrets map) =
      (Value.memberStrings map).map fun text => redactSecretText text secrets
  | [] => rfl
  | (k, v) :: map => by
      rw [redactMembers, Value.memberStrings, Value.memberStrings, List.map_append,
        strings_redactJsonValue v, strings_redactMembers map]

end

mutual

theorem names_redactJsonValue : ∀ v : Value,
    (redactJsonValue secrets v).names literal = v.names literal
  | .string text => rfl
  | .array items => by
      rw [redactJsonValue, Value.names, Value.names]
      exact names_redactItems items
  | .object map => by
      rw [redactJsonValue, Value.names, Value.names]
      exact names_redactMembers map
  | .null | .bool _ | .number _ => rfl

theorem names_redactItems : ∀ items : List Value,
    Value.itemNames literal (redactItems secrets items) = Value.itemNames literal items
  | [] => rfl
  | item :: items => by
      rw [redactItems, Value.itemNames, Value.itemNames, names_redactJsonValue item,
        names_redactItems items]

theorem names_redactMembers : ∀ map : List (String × Value),
    Value.memberNames literal (redactMembers secrets map) = Value.memberNames literal map
  | [] => rfl
  | (k, v) :: map => by
      rw [redactMembers, Value.memberNames, Value.memberNames, names_redactJsonValue v,
        names_redactMembers map]

end

end Documents

end Peanut
