import WLink.Lib.Agrees
import WLink.Misc.CJsonAccepts

/-!
# Printing a tree to a new block

`cJSON_Print` and `cJSON_PrintUnformatted` with the texts that `Misc.CJsonHeap` leaves out. Every
text is put into a block whose size is computed before, from the lengths of the texts of the
children, and one that does not fit is a write behind the block. It never comes to that, and what is
printed is `nodeText` (`agrees_printValueText`). The `int` in which the lengths are added is taken
to be large enough.

* `printStringPtr`, `printNumberText` -- strings and numbers
* `printValueText` -- `print_value` with `print_array` and `print_object`
* `nodeText` -- the text alone
-/

namespace WLink.Misc

open WLink.Lib Httpd CString Exec

/-! ## Strings -/

/-- `sprintf("%04x", …)` of a byte. -/
def sprintf04x (token : UInt8) : List UInt8 :=
  let digits := (Nat.toDigits 16 token.toNat).map fun c => UInt8.ofNat c.toNat
  List.replicate (4 - digits.length) 48 ++ digits

/-- The bytes that a backslash and one letter stand for. -/
def letterEscaped (token : UInt8) : Bool := token ∈ [34, 92, 8, 12, 10, 13, 9]

/-- The loop of `print_string_ptr` that counts. -/
def escapedLen (str : List UInt8) : ℕ :=
  (str.map fun token => if letterEscaped token then 2 else if token < 32 then 6 else 1).sum

/-- The `switch` of `print_string_ptr`. -/
def escapeTail (token : UInt8) : List UInt8 :=
  if token = 92 then [92]
  else if token = 34 then [34]
  else if token = 8 then [98]
  else if token = 12 then [102]
  else if token = 10 then [110]
  else if token = 13 then [114]
  else if token = 9 then [116]
  else 117 :: sprintf04x token

/-- What is stored for a byte. -/
def escapeByte (token : UInt8) : List UInt8 :=
  if 31 < token ∧ token ≠ 34 ∧ token ≠ 92 then [token] else 92 :: escapeTail token

def escapeBytes (str : List UInt8) : List UInt8 := str.flatMap escapeByte

/-! ## Arrays and objects -/

/-- The loop of `print_array` that puts the entries together. -/
def joinEntries (fmt : Bool) : List (List UInt8) → List UInt8
  | [] => []
  | [entry] => entry
  | entry :: entries => entry ++ 44 :: ((if fmt then [32] else []) ++ joinEntries fmt entries)

def arrayText (fmt : Bool) (entries : List (List UInt8)) : List UInt8 :=
  91 :: (joinEntries fmt entries ++ [93])

/-- `len` of `print_array`. -/
def arrayLen (fmt : Bool) (entries : List (List UInt8)) : ℕ :=
  5 + (entries.map fun ret => ret.length + 2 + if fmt then 1 else 0).sum

def tabs (fmt : Bool) (depth : ℕ) : List UInt8 := if fmt then List.replicate depth 9 else []

def lineBreak (fmt : Bool) : List UInt8 := if fmt then [10] else []

/-- The loop of `print_object` that puts the names and the entries together. -/
def joinMembers (fmt : Bool) (depth : ℕ) : List (List UInt8 × List UInt8) → List UInt8
  | [] => []
  | (name, entry) :: members =>
    tabs fmt depth ++ (name ++ 58 :: ((if fmt then [9] else []) ++ (entry ++
      ((if members.isEmpty then [] else [44]) ++ (lineBreak fmt ++
        joinMembers fmt depth members)))))

/-- The text of an object, where `depth` is that of its members. -/
def objectText (fmt : Bool) (depth : ℕ) (members : List (List UInt8 × List UInt8)) : List UInt8 :=
  123 :: (lineBreak fmt ++ (joinMembers fmt depth members ++ (tabs fmt (depth - 1) ++ [125])))

/-- `len` of `print_object`. -/
def objectLen (fmt : Bool) (depth : ℕ) (members : List (List UInt8 × List UInt8)) : ℕ :=
  7 + (if fmt then depth else 0) + (members.map fun m =>
    m.2.length + m.1.length + 2 + if fmt then 2 + depth else 0).sum

/-- The text of an object without members. -/
def emptyObjectText (fmt : Bool) (depth : ℕ) : List UInt8 :=
  123 :: (lineBreak fmt ++ (tabs fmt (depth - 1) ++ [125]))

/-! ## The functions -/

section

variable {σ : Type} (env : CJsonEnv) (dtoa : CJsonItem → Option (List UInt8))

/-- The text and a NUL in a new block of `size` bytes. -/
def mallocText (size : ℕ) (text : List UInt8) : HeapM σ (Option HeapString) := do
  match ← cJsonMalloc env with
  | none => pure none
  | some out =>
    if size < text.length + 1 then Exec.lift (.error .write) else pure (some ⟨out, text⟩)

/-- `cJSON_strdup` of a word. -/
def strdupText (str : List UInt8) : HeapM σ (Option HeapString) :=
  mallocText env (str.length + 1) str

/-- `print_number`. What it prints of a double that is not `valueint` is `dtoa`. -/
def printNumberText (item : CJsonItem) : HeapM σ (Option HeapString) :=
  match dtoa item with
  | none => mallocText env 21 (sprintfD item.valueint)
  | some text => mallocText env 64 text

/-- `print_string_ptr`, of a `NULL` as well. -/
def printStringPtr : Option HeapString → HeapM σ (Option HeapString)
  | none => strdupText env []
  | some str => mallocText env (escapedLen str.bytes + 3) (quoted (escapeBytes str.bytes))

/-- The output of `print_array` and `print_object`, unless something has failed before. -/
def printOutputText (ok : Bool) (size : ℕ) (text : List UInt8) : HeapM σ (Option HeapString) :=
  if ok then mallocText env size text else pure none

def textOf (s : Option HeapString) : List UInt8 := (s.map HeapString.bytes).getD []

mutual

/-- `print_value` -/
def printValueText (fmt : Bool) : ℕ → CJsonNode → HeapM σ (Option HeapString)
  | depth, .node item child =>
    match item.type with
    | .null => strdupText env (ascii "null")
    | .cFalse => strdupText env (ascii "false")
    | .cTrue => strdupText env (ascii "true")
    | .number => printNumberText env dtoa item
    | .string => printStringPtr env item.valuestring
    | .array =>
      -- `print_array`
      if child.isEmpty then mallocText env 3 (ascii "[]")
      else do
        match ← cJsonMalloc env with
        | none => pure none
        | some entries =>
          let (rets, ok) ← printEntriesText fmt (depth + 1) child
          let texts := rets.map HeapString.bytes
          let out ← printOutputText env ok (arrayLen fmt texts) (arrayText fmt texts)
          releaseAll (rets.map HeapString.block)
          release entries
          pure out
    | .object =>
      -- `print_object`
      if child.isEmpty then
        mallocText env (if fmt then depth + 4 else 3) (emptyObjectText fmt depth)
      else do
        match ← cJsonMalloc env with
        | none => pure none
        | some entries =>
          match ← cJsonMalloc env with
          | none =>
            release entries
            pure none
          | some names =>
            let pairs ← printMembersText fmt (depth + 1) child
            let ok := pairs.all fun p => p.1.isSome && p.2.isSome
            let texts := pairs.map fun p => (textOf p.1, textOf p.2)
            let out ← printOutputText env ok (objectLen fmt (depth + 1) texts)
              (objectText fmt (depth + 1) texts)
            releaseAll (pairs.flatMap fun p =>
              (p.1.map HeapString.block).toList ++ (p.2.map HeapString.block).toList)
            release names
            release entries
            pure out

/-- The entries of an array, up to the first failure, and whether there was none. -/
def printEntriesText (fmt : Bool) : ℕ → List CJsonNode → HeapM σ (List HeapString × Bool)
  | _, [] => pure ([], true)
  | depth, c :: cs => do
    match ← printValueText fmt depth c with
    | none => pure ([], false)
    | some ret =>
      let (rets, ok) ← printEntriesText fmt depth cs
      pure (ret :: rets, ok)

/-- The names and entries of an object, with those that failed. -/
def printMembersText (fmt : Bool) :
    ℕ → List CJsonNode → HeapM σ (List (Option HeapString × Option HeapString))
  | _, [] => pure []
  | depth, c :: cs => do
    let str ← printStringPtr env c.item.string
    let ret ← printValueText fmt depth c
    let pairs ← printMembersText fmt depth cs
    pure ((str, ret) :: pairs)

end

/-- `cJSON_Print`, and `cJSON_PrintUnformatted` if `fmt` is `false`. -/
def cJsonPrintText (fmt : Bool) (c : CJsonNode) : HeapM σ (Option HeapString) :=
  printValueText env dtoa fmt 0 c

/-! ## The text -/

/-- The text of a string that may be `NULL`. -/
def stringPtrText : Option HeapString → List UInt8
  | none => []
  | some str => quoted (escapeBytes str.bytes)

mutual

def nodeText (fmt : Bool) : ℕ → CJsonNode → List UInt8
  | depth, .node item child =>
    match item.type with
    | .null => ascii "null"
    | .cFalse => ascii "false"
    | .cTrue => ascii "true"
    | .number => (dtoa item).getD (sprintfD item.valueint)
    | .string => stringPtrText item.valuestring
    | .array => arrayText fmt (entryTexts fmt (depth + 1) child)
    | .object =>
      if child.isEmpty then emptyObjectText fmt depth
      else objectText fmt (depth + 1) (memberTexts fmt (depth + 1) child)

def entryTexts (fmt : Bool) : ℕ → List CJsonNode → List (List UInt8)
  | _, [] => []
  | depth, c :: cs => nodeText fmt depth c :: entryTexts fmt depth cs

def memberTexts (fmt : Bool) : ℕ → List CJsonNode → List (List UInt8 × List UInt8)
  | _, [] => []
  | depth, c :: cs =>
    (stringPtrText c.item.string, nodeText fmt depth c) :: memberTexts fmt depth cs

end

end

end WLink.Misc
