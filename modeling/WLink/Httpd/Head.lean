import WLink.Httpd.Def
import Mathlib.Data.Nat.Digits.Defs

/-!
# Response heads

How `HTTPd_Utils.c` writes the head of a response, and the tables of status texts and of mime
types. A writer gets the bytes written so far and returns them with its own behind them; that
the buffer is long enough for a head is what `httpSendHeader` and its siblings rely on, and
what the bounds on `Head.render` are for.

* `parseStatusCode`, `parseHeaders`, `parseEndOfHeaders` -- the writers
* `Head.render` -- a head as it is sent
* `getMimetype` -- the mime type for a file name
-/

namespace WLink.Httpd

open WLink.Lib CString

/-! ## Numbers -/

/-- The decimal digits of a number. -/
def decimal (n : ℕ) : List UInt8 := (Nat.toDigits 10 n).map fun c => UInt8.ofNat c.toNat

/-- `sprintf(s, "%d", z)`. -/
def sprintfD (z : ℤ) : List UInt8 := if z < 0 then 45 :: decimal z.natAbs else decimal z.natAbs

theorem sprintfD_natCast (n : ℕ) : sprintfD n = decimal n := by
  unfold sprintfD
  rw [if_neg (by omega), Int.natAbs_natCast]

/-- A 32-bit number has at most ten digits. -/
theorem length_decimal_le {n : ℕ} (h : n < 2 ^ 32) : (decimal n).length ≤ 10 := by
  unfold decimal
  rw [List.length_map]
  exact Nat.toDigitsCore_length 10 (n + 1) n 10 (by norm_num) (by omega)

/-! ## Tables -/

/-- The status codes with their texts. -/
def httpStatus : List (ℕ × List UInt8) :=
  [(100, ascii "Continue"),
   (101, ascii "Switching Protocols"),
   (102, ascii "Processing"),
   (200, ascii "OK"),
   (201, ascii "Created"),
   (202, ascii "Accepted"),
   (203, ascii "Non - Authoritative Information"),
   (204, ascii "No Content"),
   (205, ascii "Reset Content"),
   (206, ascii "Partial Content"),
   (207, ascii "Multi - Status"),
   (300, ascii "Multiple Choices"),
   (301, ascii "Moved Permanently"),
   (302, ascii "Found"),
   (303, ascii "See Other"),
   (304, ascii "Not Modified"),
   (305, ascii "Use Proxy"),
   (306, ascii "Switch Proxy"),
   (307, ascii "Temporary Redirect"),
   (400, ascii "Bad Request"),
   (401, ascii "Unauthorized"),
   (402, ascii "Payment Required"),
   (403, ascii "Forbidden"),
   (404, ascii "Not Found"),
   (405, ascii "Method Not Allowed"),
   (406, ascii "Not Acceptable"),
   (407, ascii "Proxy Authentication Required"),
   (408, ascii "Request Timeout"),
   (409, ascii "Conflict"),
   (410, ascii "Gone"),
   (411, ascii "Length Required"),
   (412, ascii "Precondition Failed"),
   (413, ascii "Request Entity Too Large"),
   (414, ascii "Request - URI Too Long"),
   (415, ascii "Unsupported Media Type"),
   (416, ascii "Requested Range Not Satisfiable"),
   (417, ascii "Expectation Failed"),
   (418, ascii "I'm a teapot"),
   (421, ascii "There are too many connections from your internet address"),
   (422, ascii "Unprocessable Entity"),
   (423, ascii "Locked"),
   (424, ascii "Failed Dependency"),
   (425, ascii "Unordered Collection"),
   (426, ascii "Upgrade Required"),
   (449, ascii "Retry With"),
   (451, ascii "Unavailable For Legal Reasons"),
   (500, ascii "Internal Server Error"),
   (501, ascii "Not Implemented"),
   (502, ascii "Bad Gateway"),
   (503, ascii "Service Unavailable"),
   (504, ascii "Gateway Timeout"),
   (505, ascii "HTTP Version Not Supported"),
   (506, ascii "Variant Also Negotiates"),
   (507, ascii "Insufficient Storage"),
   (509, ascii "Bandwidth Limit Exceeded"),
   (510, ascii "Not Extended")]

/-- The mappings from file extensions to mime types. -/
def mimeTypes : List (List UInt8 × List UInt8) :=
  [(ascii "htm", ascii "text/htm"),
   (ascii "html", ascii "text/html"),
   (ascii "css", ascii "text/css"),
   (ascii "js", ascii "text/javascript"),
   (ascii "txt", ascii "text/plain"),
   (ascii "csv", ascii "text/csv"),
   (ascii "ico", ascii "image/x-icon"),
   (ascii "jpg", ascii "image/jpeg"),
   (ascii "jpeg", ascii "image/jpeg"),
   (ascii "png", ascii "image/png"),
   (ascii "svg", ascii "image/svg+xml"),
   (ascii "xml", ascii "text/xml"),
   (ascii "json", ascii "application/json")]

/-- The mime type of an extension; the entry behind the last one is the default. -/
def mimeOf (ext : List UInt8) : List UInt8 := (mimeTypes.lookup ext).getD (ascii "text/html")

/-- No text of a table is longer than its default or than this bound. -/
theorem length_lookup_getD_le {α : Type} [BEq α] {table : List (α × List UInt8)} {k : ℕ}
    (htable : ∀ e ∈ table, e.2.length ≤ k) {dflt : List UInt8} (hdflt : dflt.length ≤ k) (a : α) :
    ((table.lookup a).getD dflt).length ≤ k := by
  induction table with
  | nil => exact hdflt
  | cons e table ih =>
    rw [List.lookup_cons]
    cases a == e.1 with
    | true => exact htable e List.mem_cons_self
    | false => exact ih fun e' he' => htable e' (List.mem_cons_of_mem e he')

theorem length_mimeOf_le (ext : List UInt8) : (mimeOf ext).length ≤ 16 :=
  length_lookup_getD_le (by decide +kernel) (by decide) ext

/-! ## Writers -/

/-- `HTTPd_Parse_Status_Code` at the start of a buffer: nothing is left of the line for a code
that is not in the table. -/
def parseStatusCode (statusCode : ℕ) : List UInt8 :=
  match httpStatus.lookup statusCode with
  | some text => httpVersion1P1 ++ ascii " " ++ sprintfD statusCode ++ ascii " " ++ text ++ crlf
  | none => []

/-- `HTTPd_Parse_Headers`. -/
def parseHeaders (buf headerStr headerVal : List UInt8) : List UInt8 :=
  buf ++ headerStr ++ ascii ": " ++ headerVal ++ crlf

/-- `HTTPd_Parse_End_Of_Headers`. -/
def parseEndOfHeaders (buf : List UInt8) : List UInt8 :=
  if ¬ crlf <:+ buf then buf ++ (crlf ++ crlf) else buf ++ crlf

/-- A response head: a status line and header fields in their order. -/
structure Head where
  status : ℕ
  fields : List (List UInt8 × List UInt8)
deriving DecidableEq, Repr

/-- The bytes of a head. -/
def Head.render (h : Head) : List UInt8 :=
  parseEndOfHeaders <|
    h.fields.foldl (fun buf f => parseHeaders buf f.1 f.2) (parseStatusCode h.status)

/-- The value of a header field. -/
def Head.field (h : Head) (name : List UInt8) : Option (List UInt8) := h.fields.lookup name

/-- How many bytes a list of fields takes. -/
def fieldsLength (fields : List (List UInt8 × List UInt8)) : ℕ :=
  (fields.map fun f => f.1.length + f.2.length + 4).sum

@[simp] theorem fieldsLength_nil : fieldsLength [] = 0 := rfl

@[simp] theorem fieldsLength_cons (f : List UInt8 × List UInt8)
    (fields : List (List UInt8 × List UInt8)) :
    fieldsLength (f :: fields) = f.1.length + f.2.length + 4 + fieldsLength fields := rfl

theorem fieldsLength_append (as bs : List (List UInt8 × List UInt8)) :
    fieldsLength (as ++ bs) = fieldsLength as + fieldsLength bs := by
  unfold fieldsLength
  rw [List.map_append, List.sum_append]

theorem length_parseHeaders (buf name val : List UInt8) :
    (parseHeaders buf name val).length = buf.length + (name.length + val.length + 4) := by
  have hsep : (ascii ": ").length = 2 := by decide
  have hend : crlf.length = 2 := by decide
  unfold parseHeaders
  simp only [List.length_append, hsep, hend]
  omega

theorem length_foldl_parseHeaders (fields : List (List UInt8 × List UInt8)) (buf : List UInt8) :
    (fields.foldl (fun buf f => parseHeaders buf f.1 f.2) buf).length =
      buf.length + fieldsLength fields := by
  induction fields generalizing buf with
  | nil => rfl
  | cons f fields ih =>
    rw [List.foldl_cons, ih, length_parseHeaders, fieldsLength_cons]
    omega

/-- The status line takes at most 83 bytes, the end of the head at most four. -/
theorem Head.length_render_le (h : Head) (hstatus : h.status < 2 ^ 32) :
    h.render.length ≤ 87 + fieldsLength h.fields := by
  have hline : (parseStatusCode h.status).length ≤ 83 := by
    unfold parseStatusCode
    have htext := length_lookup_getD_le
      (show ∀ e ∈ httpStatus, e.2.length ≤ 57 by decide +kernel) (show ([] : List UInt8).length ≤ 57 by decide) h.status
    have hversion : httpVersion1P1.length = 8 := by decide
    have hblank : (ascii " ").length = 1 := by decide
    have hend : crlf.length = 2 := by decide
    have hdigits := length_decimal_le hstatus
    cases hlook : httpStatus.lookup h.status with
    | none => exact Nat.zero_le _
    | some text =>
      rw [hlook] at htext
      simp only [List.length_append, sprintfD_natCast, hversion, hblank, hend]
      simp only [Option.getD_some] at htext
      omega
  have hend : crlf.length = 2 := by decide
  unfold render parseEndOfHeaders
  split <;> simp only [List.length_append, length_foldl_parseHeaders, hend] <;> omega

/-! ## Mime types -/

/-- `while (ext != url && *ext != '.') ext--`. -/
def extLoop (m : List UInt8) (url : ℕ) : ℕ → Except Fault ℕ
  | 0 =>
    if 0 = url then .ok 0
    else (readAt m 0).bind fun c => if c = 46 then .ok 0 else .error .read
  | ext + 1 =>
    if ext + 1 = url then .ok (ext + 1)
    else (readAt m (ext + 1)).bind fun c => if c = 46 then .ok (ext + 1) else extLoop m url ext

/-- `HTTPdGetMimetype(m + url)`. -/
def getMimetype (m : List UInt8) (url : ℕ) : Except Fault (List UInt8) := do
  let len ← strlen m url
  if url + len = 0 then .error .read
  else
    let ext ← extLoop m url (url + len - 1)
    let c ← readAt m ext
    let ext := if c = 46 then ext + 1 else ext
    return mimeOf (← cstring m ext)

/-- The text behind the last dot of a name, or the whole name. -/
def extension (u : List UInt8) : List UInt8 := (u.reverse.takeWhile (· ≠ 46)).reverse

theorem extension_append {a b : List UInt8} (h : 46 ∉ b) : extension (a ++ 46 :: b) = b := by
  have hb : ∀ c ∈ b.reverse, decide (c ≠ 46) = true := by
    intro c hc
    exact decide_eq_true fun heq => h (heq ▸ List.mem_reverse.mp hc)
  unfold extension
  rw [List.reverse_append, List.reverse_cons, List.append_assoc,
    List.takeWhile_append_of_pos hb, List.singleton_append, List.takeWhile_cons_of_neg (by simp),
    List.append_nil, List.reverse_reverse]

theorem extension_of_notMem {u : List UInt8} (h : 46 ∉ u) : extension u = u := by
  have hu : ∀ c ∈ u.reverse, decide (c ≠ 46) = true := by
    intro c hc
    exact decide_eq_true fun heq => h (heq ▸ List.mem_reverse.mp hc)
  unfold extension
  rw [← List.append_nil u.reverse, List.takeWhile_append_of_pos hu, List.takeWhile_nil,
    List.append_nil, List.reverse_reverse]

/-- From inside a string the walk back ends in the string, at the last dot or at its begin. -/
theorem extLoop_eq {m u : List UInt8} {url : ℕ} (h : StrAt m url u) {k : ℕ} (hk : k < u.length) :
    ∃ j ≤ k, extLoop m url (url + k) = .ok (url + j) ∧ (u[j]? = some 46 ∨ j = 0) ∧
      ∀ i, j < i → i ≤ k → u[i]? ≠ some 46 := by
  induction k with
  | zero =>
    refine ⟨0, le_refl 0, ?_, .inr rfl, fun i hi hi' => absurd hi (not_lt.mpr hi')⟩
    cases url with
    | zero => rfl
    | succ url =>
      show (if url + 1 = url + 1 then _ else _) = _
      rw [if_pos rfl]
  | succ k ih =>
    obtain ⟨j, hj, heq, hdot, hlast⟩ := ih (by omega)
    have hcell : u[k + 1]? = some u[k + 1] := List.getElem?_eq_getElem hk
    have hread : readAt m (url + k + 1) = .ok u[k + 1] := by
      apply readAt_eq
      rw [show url + k + 1 = url + (k + 1) by omega, h.getElem?_eq hk, hcell]
    rw [show url + (k + 1) = url + k + 1 by omega, extLoop, if_neg (by omega), hread]
    simp only [Except.bind]
    by_cases hk46 : u[k + 1] = 46
    · refine ⟨k + 1, le_refl _, by rw [if_pos hk46]; rfl, .inl (by rw [hcell, hk46]), ?_⟩
      exact fun i hi hi' => absurd hi (not_lt.mpr hi')
    · refine ⟨j, by omega, by rw [if_neg hk46, heq], hdot, fun i hi hi' => ?_⟩
      rcases Nat.lt_or_eq_of_le hi' with hlt | rfl
      · exact hlast i hi (by omega)
      · rw [hcell]
        exact fun hsome => hk46 (Option.some.inj hsome)

/-- Where the walk back ends, it has found the extension. -/
theorem drop_eq_extension {u : List UInt8} {j : ℕ} (hj : u[j]? = some 46 ∨ j = 0)
    (hlast : ∀ i, j < i → u[i]? ≠ some 46) :
    u.drop (if u[j]? = some 46 then j + 1 else j) = extension u := by
  -- there is no dot behind the place
  have hrest : 46 ∉ u.drop (j + 1) := by
    intro hmem
    obtain ⟨i, hi, hget⟩ := List.mem_iff_getElem.mp hmem
    refine hlast (j + 1 + i) (by omega) ?_
    rw [← List.getElem?_drop, List.getElem?_eq_getElem hi, hget]
  split_ifs with hdot
  · obtain ⟨hlt, hget⟩ := List.getElem?_eq_some_iff.mp hdot
    have hsplit : u.take j ++ 46 :: u.drop (j + 1) = u := by
      rw [← hget, List.cons_getElem_drop_succ, List.take_append_drop]
    conv_rhs => rw [← hsplit]
    rw [extension_append hrest]
  · obtain rfl := hj.resolve_left hdot
    rw [List.drop_zero, extension_of_notMem]
    intro hmem
    obtain ⟨i, hi, hget⟩ := List.mem_iff_getElem.mp hmem
    have hi46 : u[i]? = some 46 := by rw [List.getElem?_eq_getElem hi, hget]
    cases i with
    | zero => exact hdot hi46
    | succ i => exact hlast (i + 1) (by omega) hi46

/-- The mime type of a name that is not empty is that of its extension. -/
theorem getMimetype_eq {m u : List UInt8} {url : ℕ} (h : StrAt m url u) (hu : u ≠ []) :
    getMimetype m url = .ok (mimeOf (extension u)) := by
  have hpos : 0 < u.length := List.length_pos_iff.mpr hu
  obtain ⟨j, hj, hext, hdot, hlast⟩ := extLoop_eq h (k := u.length - 1) (by omega)
  have hstart : url + u.length - 1 = url + (u.length - 1) := by omega
  have hcell : u[j]? = some (u.get ⟨j, by omega⟩) := List.getElem?_eq_getElem (by omega)
  have hread : readAt m (url + j) = .ok (u.get ⟨j, by omega⟩) := by
    apply readAt_eq
    rw [h.getElem?_eq (by omega), hcell]
  have hend : ∀ i, j < i → u[i]? ≠ some 46 := by
    intro i hi
    rcases Nat.lt_or_ge i u.length with hlt | hge
    · exact hlast i hi (by omega)
    · rw [List.getElem?_eq_none hge]
      nofun
  have hfound := drop_eq_extension hdot hend
  -- a dot itself is skipped
  obtain ⟨k, hk, heq, hk'⟩ : ∃ k ≤ u.length,
      (if u.get ⟨j, by omega⟩ = 46 then url + j + 1 else url + j) = url + k ∧
        k = if u[j]? = some 46 then j + 1 else j := by
    rw [hcell]
    simp only [Option.some.injEq]
    split_ifs
    · exact ⟨j + 1, by omega, by omega, rfl⟩
    · exact ⟨j, by omega, rfl, rfl⟩
  rw [← hk'] at hfound
  unfold getMimetype
  rw [strlen_eq h]
  simp only [bind, Except.bind, pure, Except.pure]
  rw [if_neg (by omega), hstart, hext]
  simp only [hread, heq]
  rw [cstring_eq (h.advance hk), hfound]

end WLink.Httpd
