import WLink.Httpd.Def

/-!
# Reading a request head

The functions of `HTTPd_Utils.c` that take a request head apart. A head is a byte memory, a
pointer into it an offset; a function that reads outside of the memory is a `Fault.read`, and
the search loop of `HTTPd_Get_Header_Value` has a bound on its rounds that no head reaches
(`getHeaderValue_ok`).

* `getHeaderValue`, `getHost` -- the value of a header
* `getHeaderMethod` -- the method of the request line
* `getHeaderPath` -- the target of the request line
-/

namespace WLink.Httpd

open WLink.Lib CString

/-! ## Header values -/

/-- `buf_ptr` is behind a line end, a blank, a colon or a NUL. -/
def atHeaderName (m : List UInt8) (q : ℕ) : Except Fault Bool :=
  if q < 2 then .error .read
  else do
    if ← startsWith m (q - 2) crlf then pure true
    else
      let c ← readAt m (q - 1)
      pure (c = 32 || c = 58 || c = 0)

/-- The `do … while (1)` of `HTTPd_Get_Header_Value`, with a bound on its rounds. -/
def headerValueLoop (m name : List UInt8) : ℕ → ℕ → Except Fault (Option ℕ)
  | 0, _ => .error .hang
  | fuel + 1, p => do
    match ← strstr m p name with
    | none => pure none
    | some q =>
      if ← atHeaderName m q then
        let q ← skipByte m (q + name.length) 32
        let c ← readAt m q
        if c ≠ 58 then headerValueLoop m name fuel (q + 1)
        else
          let v ← skipByte m (q + 1) 32
          pure (some v)
      else
        match ← strstr m q crlf with
        | none => pure none
        | some e => headerValueLoop m name fuel e

/-- `HTTPd_Get_Header_Value(m + p, name)`. -/
def getHeaderValue (m : List UInt8) (p : ℕ) (name : List UInt8) : Except Fault (Option ℕ) :=
  headerValueLoop m name (m.length + 1) p

def getHost (m : List UInt8) (p : ℕ) : Except Fault (Option ℕ) := getHeaderValue m p httpHost

/-! ## The request line -/

/-- The first occurrence of a text, if it starts in front of `lineEnd`. -/
def findBefore (m : List UInt8) (p : ℕ) (pat : List UInt8) (lineEnd : ℕ) :
    Except Fault (Option ℕ) := do
  match ← strstr m p pat with
  | none => pure none
  | some q => pure (if q < lineEnd then some q else none)

/-- `HTTPd_Get_Header_Method(m + p)`. -/
def getHeaderMethod (m : List UInt8) (p : ℕ) : Except Fault HttpdMethod := do
  match ← strstr m p crlf with
  | none => pure .unknown
  | some lineEnd =>
    if (← findBefore m p httpMethodPost lineEnd).isSome then pure .post
    else if (← findBefore m p httpMethodGet lineEnd).isSome then pure .get
    else if (← findBefore m p httpMethodPut lineEnd).isSome then pure .put
    else if (← findBefore m p httpMethodDelete lineEnd).isSome then pure .delete
    else pure .unknown

/-- The way from a version text at `q` back to the target: over blanks, then over the target
to the blank in front of it. -/
def pathBefore (m : List UInt8) (q : ℕ) : Except Fault ℕ :=
  if q = 0 then .error .read
  else do
    let p ← backWhile m (· = 32) (q - 1)
    let p ← backWhile m (· ≠ 32) p
    pure (p + 1)

/-- `HTTPd_Get_Header_Path(m + p)`. -/
def getHeaderPath (m : List UInt8) (p : ℕ) : Except Fault (Option ℕ) := do
  match ← strstr m p crlf with
  | none => pure none
  | some lineEnd =>
    match ← findBefore m p httpVersion1P0 lineEnd with
    | some q => some <$> pathBefore m q
    | none =>
      match ← findBefore m p httpVersion1P1 lineEnd with
      | some q => some <$> pathBefore m q
      | none => pure none

end WLink.Httpd
