import WLink.Lib.Ownership
import WLink.Misc.CJson

/-!
# cJSON and the heap

`cJSON.c` with the blocks that it allocates and frees. A tree owns a block for every item and one
for every string in it: `CJsonNode.blocks`. The text that is printed is left out, only its block
is there. Which calls of `mem_Malloc` succeed and what a number comes to, which `parse_number`
computes in floating point, is decided by a `CJsonEnv`.

* `cJsonDelete`, `cJsonCreateObject`, `cJsonAddItemToObject` -- building and freeing trees
* `cJsonParse` -- a tree from a text
* `cJsonPrint` -- a text from a tree
-/

namespace WLink.Misc

open WLink.Lib CString

/-! ## Trees -/

/-- A C string in a block of its own. -/
structure HeapString where
  block : ℕ
  bytes : List UInt8
deriving DecidableEq, Repr

/-- A `cJSON` without its children. -/
structure CJsonItem where
  block : ℕ
  string : Option HeapString
  type : CJsonType
  valueint : ℤ
  valuestring : Option HeapString
deriving DecidableEq, Repr

/-- A `cJSON` on the heap. -/
inductive CJsonNode
  | node (item : CJsonItem) (child : List CJsonNode)

def CJsonItem.blocks (item : CJsonItem) : List ℕ :=
  item.block :: (item.valuestring.toList ++ item.string.toList).map HeapString.block

namespace CJsonNode

def item : CJsonNode → CJsonItem
  | node item _ => item

mutual

/-- The blocks of a tree. -/
def blocks : CJsonNode → List ℕ
  | node item child => item.blocks ++ blocksAll child

def blocksAll : List CJsonNode → List ℕ
  | [] => []
  | c :: cs => c.blocks ++ blocksAll cs

end

mutual

/-- The value that a tree stands for. -/
def json : CJsonNode → CJson
  | node item child =>
    .item (item.string.map HeapString.bytes) item.type item.valueint
      ((item.valuestring.map HeapString.bytes).getD []) (jsonAll child)

def jsonAll : List CJsonNode → List CJson
  | [] => []
  | c :: cs => c.json :: jsonAll cs

end

/-- `cJSON_AddItemToArray` -/
def append : CJsonNode → CJsonNode → CJsonNode
  | node item child, c => node item (child ++ [c])

def setItem (f : CJsonItem → CJsonItem) : CJsonNode → CJsonNode
  | node item child => node (f item) child

end CJsonNode

structure CJsonEnv where
  mallocOk : ℕ → Bool
  numberInt : List UInt8 → ℤ

section

variable {σ : Type} (env : CJsonEnv)

/-! ## Building and freeing -/

/-- `cJSON_malloc` -/
def cJsonMalloc : HeapM σ (Option ℕ) := alloc fun s => env.mallocOk s.mallocs

/-- `cJSON_strdup` -/
def cJsonStrdup (str : List UInt8) : HeapM σ (Option HeapString) := do
  let copy ← cJsonMalloc env
  pure (copy.map fun b => ⟨b, str⟩)

/-- `cJSON_New_Item`. The block is cleared by `memset`, which makes the type `cJSON_False`. -/
def cJsonNewItem : HeapM σ (Option CJsonItem) := do
  let node ← cJsonMalloc env
  pure (node.map fun b => ⟨b, none, .cFalse, 0, none⟩)

/-- `if (str) cJSON_free(str)` -/
def freeString : Option HeapString → HeapM σ Unit
  | none => pure ()
  | some s => release s.block

mutual

/-- `cJSON_Delete` of one item. -/
def cJsonDelete : CJsonNode → HeapM σ Unit
  | .node item child => do
    cJsonDeleteAll child
    freeString item.valuestring
    freeString item.string
    release item.block

/-- `cJSON_Delete` of an item and those behind it. -/
def cJsonDeleteAll : List CJsonNode → HeapM σ Unit
  | [] => pure ()
  | c :: cs => do
    cJsonDelete c
    cJsonDeleteAll cs

end

/-- The functions `cJSON_Create…`, which set the type and the value of a new item. -/
def cJsonCreate (f : CJsonItem → CJsonItem) : HeapM σ (Option CJsonNode) := do
  let item ← cJsonNewItem env
  pure (item.map fun item => .node (f item) [])

/-- `cJSON_CreateObject` -/
def cJsonCreateObject : HeapM σ (Option CJsonNode) := cJsonCreate env ({ · with type := .object })

/-- `cJSON_CreateArray` -/
def cJsonCreateArray : HeapM σ (Option CJsonNode) := cJsonCreate env ({ · with type := .array })

/-- `cJSON_CreateBool` -/
def cJsonCreateBool (b : Bool) : HeapM σ (Option CJsonNode) :=
  cJsonCreate env ({ · with type := if b then .cTrue else .cFalse })

/-- `cJSON_CreateNumber` of an integer. -/
def cJsonCreateNumber (num : ℤ) : HeapM σ (Option CJsonNode) :=
  cJsonCreate env ({ · with type := .number, valueint := num })

/-- `cJSON_CreateString` -/
def cJsonCreateString (string : List UInt8) : HeapM σ (Option CJsonNode) := do
  match ← cJsonNewItem env with
  | none => pure none
  | some item =>
    let valuestring ← cJsonStrdup env string
    pure (some (.node { item with type := .string, valuestring } []))

/-- The name that `cJSON_AddItemToObject` gives an item. -/
def nameItem (string : List UInt8) (item : CJsonNode) : HeapM σ CJsonNode := do
  freeString item.item.string
  let name ← cJsonStrdup env string
  pure (item.setItem ({ · with string := name }))

/-- `cJSON_AddItemToObject` -/
def cJsonAddItemToObject (object : CJsonNode) (string : List UInt8) :
    Option CJsonNode → HeapM σ CJsonNode
  | none => pure object
  | some item => do
    let item ← nameItem env string item
    pure (object.append item)

/-! ## Parsing

A text is the memory from the pointer on, and a result `none` for the rest of it is `NULL`. -/

/-- `skip` -/
def skip : List UInt8 → Except Fault (List UInt8)
  | [] => .error .read
  | c :: cs => if c ≠ 0 ∧ c ≤ 32 then skip cs else .ok (c :: cs)

/-- `while (p(*num)) num++` -/
def skipWhile (p : UInt8 → Bool) : List UInt8 → Except Fault (List UInt8)
  | [] => .error .read
  | c :: cs => if p c then skipWhile p cs else .ok (c :: cs)

/-- `if (p(*num)) num++` -/
def skipIf (p : UInt8 → Bool) : List UInt8 → Except Fault (List UInt8)
  | [] => .error .read
  | c :: cs => if p c then .ok cs else .ok (c :: cs)

/-- The digits in front of the point. -/
def skipInteger : List UInt8 → Except Fault (List UInt8)
  | [] => .error .read
  | c :: cs => if 49 ≤ c ∧ c ≤ 57 then skipWhile isDigit cs else .ok (c :: cs)

/-- The point and the digits behind it, if there are any. -/
def skipFraction : List UInt8 → Except Fault (List UInt8)
  | [] => .error .read
  | c :: cs =>
    if c = 46 then
      match cs with
      | [] => .error .read
      | d :: ds => if isDigit d then skipWhile isDigit ds else .ok (c :: d :: ds)
    else .ok (c :: cs)

def skipExponent : List UInt8 → Except Fault (List UInt8)
  | [] => .error .read
  | c :: cs =>
    if c = 101 ∨ c = 69 then (skipIf (fun b => b = 43 || b = 45) cs).bind (skipWhile isDigit)
    else .ok (c :: cs)

/-- The rest of the text behind a number. -/
def skipNumber (num : List UInt8) : Except Fault (List UInt8) := do
  let num ← skipIf (· = 45) num
  let num ← skipIf (· = 48) num
  let num ← skipInteger num
  let num ← skipFraction num
  skipExponent num

/-- `parse_number` -/
def parseNumber (item : CJsonItem) (num : List UInt8) : Except Fault (CJsonItem × List UInt8) := do
  let rest ← skipNumber num
  pure ({ item with
    valueint := env.numberInt (num.take (num.length - rest.length)), type := .number }, rest)

def hexDigit (b : UInt8) : Option ℕ :=
  if 48 ≤ b ∧ b ≤ 57 then some (b.toNat - 48)
  else if 65 ≤ b ∧ b ≤ 70 then some (b.toNat - 55)
  else if 97 ≤ b ∧ b ≤ 102 then some (b.toNat - 87)
  else none

/-- `parse_hex4`, with the number of digits to go. -/
def parseHex : ℕ → ℕ → List UInt8 → Except Fault ℕ
  | 0, h, _ => .ok h
  | _ + 1, _, [] => .error .read
  | n + 1, h, b :: bs =>
    match hexDigit b with
    | none => .ok 0
    | some d => parseHex n (h * 16 + d) bs

def parseHex4 : List UInt8 → Except Fault ℕ := parseHex 4 0

/-- A byte of UTF-8 behind the first one. -/
def utf8Tail (uc : ℕ) : UInt8 := UInt8.ofNat ((uc ||| 0x80) &&& 0xBF)

/-- The UTF-8 form of a character. -/
def utf8 (uc : ℕ) : List UInt8 :=
  if uc < 0x80 then [UInt8.ofNat uc]
  else if uc < 0x800 then [UInt8.ofNat (uc >>> 6 ||| 0xC0), utf8Tail uc]
  else if uc < 0x10000 then
    [UInt8.ofNat (uc >>> 12 ||| 0xE0), utf8Tail (uc >>> 6), utf8Tail uc]
  else
    [UInt8.ofNat (uc >>> 18 ||| 0xF0), utf8Tail (uc >>> 12), utf8Tail (uc >>> 6), utf8Tail uc]

/-- The second half of a surrogate pair, from behind the digits of the first half on: what is
stored, and how many bytes are passed over in all. -/
def unescapeSurrogate (uc : ℕ) : List UInt8 → Except Fault (List UInt8 × ℕ)
  | [] => .error .read
  | [c] => if c ≠ 92 then .ok ([], 4) else .error .read
  | c :: d :: cs =>
    if c ≠ 92 ∨ d ≠ 117 then .ok ([], 4)
    else (parseHex4 cs).map fun uc2 =>
      if uc2 < 0xDC00 ∨ 0xDFFF < uc2 then ([], 10)
      else (utf8 (0x10000 + ((uc &&& 0x3FF) <<< 10 ||| uc2 &&& 0x3FF)), 10)

/-- The character behind `\u`: what is stored, and how many bytes are passed over. The four bytes
in the place of the digits are passed over whether they are digits or not. -/
def unescapeUnicode (cs : List UInt8) : Except Fault (List UInt8 × ℕ) := do
  let uc ← parseHex4 cs
  if (0xDC00 ≤ uc ∧ uc ≤ 0xDFFF) ∨ uc = 0 then pure ([], 4)
  else if 0xD800 ≤ uc ∧ uc ≤ 0xDBFF then unescapeSurrogate uc (cs.drop 4)
  else pure (utf8 uc, 4)

/-- The `switch` over the byte behind a backslash. -/
def unescapeByte (c : UInt8) (cs : List UInt8) : Except Fault (List UInt8 × ℕ) :=
  if c = 98 then .ok ([8], 0)
  else if c = 102 then .ok ([12], 0)
  else if c = 110 then .ok ([10], 0)
  else if c = 114 then .ok ([13], 0)
  else if c = 116 then .ok ([9], 0)
  else if c = 117 then unescapeUnicode cs
  else .ok ([c], 0)

/-- The loop of `parse_string` that counts. -/
def stringLen : List UInt8 → Except Fault ℕ
  | [] => .error .read
  | c :: cs =>
    if c = 34 ∨ c = 0 then .ok 0
    else if c = 92 then
      match cs with
      | [] => .error .read
      | _ :: cs => (stringLen cs).map (· + 1)
    else (stringLen cs).map (· + 1)

/-- The loop of `parse_string` that stores, with the number of bytes that are still to be passed
over: what is stored, and the text from the end of the string on. -/
def storeString : ℕ → List UInt8 → Except Fault (List UInt8 × List UInt8)
  | _, [] => .error .read
  | k + 1, _ :: cs => storeString k cs
  | 0, c :: cs =>
    if c = 34 ∨ c = 0 then .ok ([], c :: cs)
    else if c = 92 then
      match cs with
      | [] => .error .read
      | d :: cs => do
        let (stored, k) ← unescapeByte d cs
        let (out, ptr) ← storeString k cs
        pure (stored ++ out, ptr)
    else (storeString 0 cs).map fun r => (c :: r.1, r.2)

/-- What `parse_string` stores in a block for `len` bytes and a NUL. -/
def stringContent (len : ℕ) (str : List UInt8) : Except Fault (List UInt8 × List UInt8) := do
  let (out, ptr) ← storeString 0 str
  if len < out.length then .error .write
  else pure (out.takeWhile (· ≠ 0), if ptr.head? = some 34 then ptr.tail else ptr)

/-- `parse_string` -/
def parseString (item : CJsonItem) (str : List UInt8) :
    HeapM σ (CJsonItem × Option (List UInt8)) := do
  if str.head? ≠ some 34 then pure (item, none)
  else
    let len ← Exec.lift (stringLen str.tail)
    match ← cJsonMalloc env with
    | none => pure (item, none)
    | some out =>
      let (bytes, ptr) ← Exec.lift (stringContent len str.tail)
      pure ({ item with valuestring := some ⟨out, bytes⟩, type := .string }, some ptr)

/-- The branches of `parse_value`. -/
inductive ValueKind
  | null
  | cFalse
  | cTrue
  | string
  | number
  | array
  | object
  | malformed
deriving DecidableEq, Repr

/-- The branch for a byte. -/
def byteKind (c : UInt8) : ValueKind :=
  if c = 34 then .string
  else if c = 45 ∨ isDigit c then .number
  else if c = 91 then .array
  else if c = 123 then .object
  else .malformed

def valueKind (value : List UInt8) : Except Fault ValueKind := do
  if ← startsFrom (ascii "null") value then pure .null
  else if ← startsFrom (ascii "false") value then pure .cFalse
  else if ← startsFrom (ascii "true") value then pure .cTrue
  else pure (byteKind (← readAt value 0))

/-- The name of a member and the colon behind it. -/
def parseName (item : CJsonItem) (value : List UInt8) :
    HeapM σ (CJsonItem × Option (List UInt8)) := do
  let (item, value) ← parseString env item (← Exec.lift (skip value))
  match value with
  | none => pure (item, none)
  | some value =>
    let value ← Exec.lift (skip value)
    let item := { item with string := item.valuestring, valuestring := none }
    pure (item, if value.head? = some 58 then some value.tail else none)

/-- What stands in front of the value of a child: nothing in an array, a name in an object. -/
def parseStart (inObject : Bool) (item : CJsonItem) (value : List UInt8) :
    HeapM σ (CJsonItem × Option (List UInt8)) :=
  if inObject then parseName env item value else pure (item, some value)

mutual

/-- `parse_value`, with a bound on its depth. -/
def parseValue : ℕ → CJsonItem → List UInt8 → HeapM σ (CJsonNode × Option (List UInt8))
  | 0, _, _ => Exec.lift (.error .hang)
  | fuel + 1, item, value => do
    match ← Exec.lift (valueKind value) with
    | .null => pure (.node { item with type := .null } [], some (value.drop 4))
    | .cFalse => pure (.node { item with type := .cFalse } [], some (value.drop 5))
    | .cTrue => pure (.node { item with type := .cTrue, valueint := 1 } [], some (value.drop 4))
    | .string =>
      let (item, ptr) ← parseString env item value
      pure (.node item [], ptr)
    | .number =>
      let (item, num) ← Exec.lift (parseNumber env item value)
      pure (.node item [], some num)
    | .array =>
      -- `parse_array`
      let value ← Exec.lift (skip value.tail)
      if value.head? = some 93 then
        pure (.node { item with type := .array } [], some value.tail)
      else
        let (child, value) ← parseChildren fuel false value
        pure (.node { item with type := .array } child, value)
    | .object =>
      -- `parse_object`
      let value ← Exec.lift (skip value.tail)
      if value.head? = some 125 then
        pure (.node { item with type := .object } [], some value.tail)
      else
        let (child, value) ← parseChildren fuel true value
        pure (.node { item with type := .object } child, value)
    | .malformed => pure (.node item [], none)

/-- The children of an array or of an object, up to and with the bracket behind them. The
children that have been read stay in the list when the rest is malformed. -/
def parseChildren : ℕ → Bool → List UInt8 → HeapM σ (List CJsonNode × Option (List UInt8))
  | 0, _, _ => Exec.lift (.error .hang)
  | fuel + 1, inObject, value => do
    match ← cJsonNewItem env with
    | none => pure ([], none)
    | some item =>
      let (item, value) ← parseStart env inObject item value
      match value with
      | none => pure ([.node item []], none)
      | some value =>
        let (child, value) ← parseValue fuel item (← Exec.lift (skip value))
        match value with
        | none => pure ([child], none)
        | some value =>
          let value ← Exec.lift (skip value)
          if value.head? = some 44 then
            let (children, value) ← parseChildren fuel inObject value.tail
            pure (child :: children, value)
          else if value.head? = some (if inObject then 125 else 93) then
            pure ([child], some value.tail)
          else pure ([child], none)

end

/-- `cJSON_Parse` -/
def cJsonParse (value : List UInt8) : HeapM σ (Option CJsonNode) := do
  match ← cJsonNewItem env with
  | none => pure none
  | some item =>
    let (c, rest) ← parseValue env (2 * value.length + 1) item (← Exec.lift (skip value))
    match rest with
    | some _ => pure (some c)
    | none =>
      cJsonDelete c
      pure none

/-! ## Printing -/

def releaseAll : List ℕ → HeapM σ Unit
  | [] => pure ()
  | b :: bs => do
    release b
    releaseAll bs

/-- The output of `print_array` and `print_object`, unless something has failed before. -/
def printOutput (ok : Bool) : HeapM σ (Option ℕ) := if ok then cJsonMalloc env else pure none

mutual

/-- `print_value`: the block of the text. -/
def printValue : CJsonNode → HeapM σ (Option ℕ)
  | .node item child =>
    match item.type with
    | .array =>
      -- `print_array`
      if child.isEmpty then cJsonMalloc env
      else do
        match ← cJsonMalloc env with
        | none => pure none
        | some entries =>
          let (rets, ok) ← printEntries child
          let out ← printOutput env ok
          releaseAll rets
          release entries
          pure out
    | .object =>
      -- `print_object`
      if child.isEmpty then cJsonMalloc env
      else do
        match ← cJsonMalloc env with
        | none => pure none
        | some entries =>
          match ← cJsonMalloc env with
          | none =>
            release entries
            pure none
          | some names =>
            let pairs ← printMembers child
            let ok := pairs.all fun p => p.1.isSome && p.2.isSome
            let out ← printOutput env ok
            releaseAll (pairs.flatMap fun p => p.1.toList ++ p.2.toList)
            release names
            release entries
            pure out
    | _ => cJsonMalloc env

/-- The texts of the elements of an array, up to the first failure, and whether there was none. -/
def printEntries : List CJsonNode → HeapM σ (List ℕ × Bool)
  | [] => pure ([], true)
  | c :: cs => do
    match ← printValue c with
    | none => pure ([], false)
    | some ret =>
      let (rets, ok) ← printEntries cs
      pure (ret :: rets, ok)

/-- The texts of the names and values of an object, with those that failed. -/
def printMembers : List CJsonNode → HeapM σ (List (Option ℕ × Option ℕ))
  | [] => pure []
  | c :: cs => do
    let str ← cJsonMalloc env
    let ret ← printValue c
    let pairs ← printMembers cs
    pure ((str, ret) :: pairs)

end

/-- `cJSON_Print` -/
def cJsonPrint : CJsonNode → HeapM σ (Option ℕ) := printValue env

end

end WLink.Misc
