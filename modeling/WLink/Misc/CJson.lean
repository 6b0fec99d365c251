import WLink.Lib.CString

/-!
# JSON values of cJSON

The tree that `cJSON_Parse` returns, as far as its readers look at it: the double next to
`valueint` is left out.
-/

namespace WLink.Misc

open WLink.Lib

/-- The types of `cJSON.h`. -/
inductive CJsonType
  | cFalse
  | cTrue
  | null
  | number
  | string
  | array
  | object
deriving DecidableEq, Repr

/-- `cJSON`: `string` is the item's name if it is in an object, `child` the list of its
children. -/
inductive CJson
  | item (string : Option (List UInt8)) (type : CJsonType) (valueint : ℤ)
      (valuestring : List UInt8) (child : List CJson)

namespace CJson

def string : CJson → Option (List UInt8)
  | item s _ _ _ _ => s

def type : CJson → CJsonType
  | item _ t _ _ _ => t

def valueint : CJson → ℤ
  | item _ _ v _ _ => v

def valuestring : CJson → List UInt8
  | item _ _ _ v _ => v

def child : CJson → List CJson
  | item _ _ _ _ c => c

/-- `tolower` -/
def tolower (b : UInt8) : UInt8 := if 65 ≤ b && b ≤ 90 then b + 32 else b

/-- `cJSON_GetObjectItem`: the first child with the name, the case of letters aside. -/
def getObjectItem (object : CJson) (name : List UInt8) : Option CJson :=
  object.child.find? fun c =>
    match c.string with
    | none => false
    | some s => s.map tolower = name.map tolower

end CJson

end WLink.Misc
