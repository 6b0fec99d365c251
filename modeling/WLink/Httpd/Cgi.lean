import WLink.Httpd.Def

/-!
# What a callback sees of a request

The request as the callbacks get it, what they answer, and the two functions that take a number
out of a URL. A URL is the C string without its NUL.
-/

namespace WLink.Httpd

open WLink.Lib CString

/-- What `HTTPd_Get_CGI_Request_URL`, `HTTPd_Get_CGI_Request_Type` and
`HTTPd_Get_CGI_Request_Data` give; `none` is `NULL`. -/
structure CgiRequest where
  url : Option (List UInt8)
  method : HttpdMethod
  data : Option (List UInt8)
deriving DecidableEq, Repr

/-- A value that a callback adds to its JSON answer. -/
inductive JsonField
  | bool (b : Bool)
  | number (n : ℕ)
  | string (s : List UInt8)
deriving DecidableEq, Repr

/-- The answer of a callback: `HTTPD_CGI_NOTFOUND`, `HTTPd_Send_CGI_Response` without data or
`HTTPd_Send_CGI_JSON_Response`. -/
inductive CgiReply
  | notFound
  | response (statusCode : ℕ)
  | json (statusCode : ℕ) (fields : List (List UInt8 × JsonField))
deriving DecidableEq, Repr

/-- `HTTPd_CGI_PathStartsWith`: the rest of the URL behind the given start. -/
def httpdCgiPathStartsWith (url : Option (List UInt8)) (start : List UInt8) :
    Option (List UInt8) :=
  match url with
  | none => none
  | some u => if start.isPrefixOf u then some (u.drop start.length) else none

/-- The value of decimal digits, as `strtol` clamps it to a `long` of 32 bits. -/
def digitsValue (digits : List UInt8) : ℕ :=
  min (digits.foldl (fun n d => n * 10 + (d.toNat - 48)) 0) (2 ^ 31 - 1)

/-- The sign that `strtol` skips, and whether it was a minus. -/
def splitSign : List UInt8 → Bool × List UInt8
  | 43 :: s => (false, s)
  | 45 :: s => (true, s)
  | s => (false, s)

/-- `HTTPd_CGI_ParseUint`: a text that `strtol` does not read to its end is 0, and so is a
negative number. -/
def httpdCgiParseUint (s : List UInt8) : ℕ :=
  let (neg, t) := splitSign (s.dropWhile isSpace)
  let digits := t.takeWhile isDigit
  if digits = [] then 0
  else if t.drop digits.length ≠ [] then 0
  else if neg then 0
  else digitsValue digits

example : httpdCgiParseUint (ascii "3") = 3 := by decide

end WLink.Httpd
