import WLink.Httpd.HeaderLookup
import WLink.Httpd.RequestFrames

/-!
# The length of a body

`data_len` should be what the `Content-Length` header of a request says. The parser reads that
header only behind a `Connection` header that is no upgrade, and it reads what its lookup finds;
otherwise `data_len` stays what it was. `lengthRight_iff` says for which heads the parser is right.

* `RequestHead` -- a request line and header fields
* `LengthRight` -- the parser returns, and `data_len` is what is declared
* `DeclaredIsRead` -- the heads for which it is

The proof runs through `Leaves`: what a part of the parser makes of `data_len` on a memory that it
only reads.
-/

namespace WLink.Httpd

open WLink.Lib CString Exec

/-! ## Heads -/

/-- A lower-case letter for a capital one. -/
def lowerCase (b : UInt8) : UInt8 := if 65 ≤ b ∧ b ≤ 90 then b + 32 else b

/-- A header field, with blanks behind its colon. -/
structure HeaderField where
  name : List UInt8
  blanks : ℕ
  value : List UInt8
  name_plain : ∀ b ∈ name, IsPlain b ∧ b ≠ 58
  value_plain : ∀ b ∈ value, b ≠ 13 ∧ b ≠ 10 ∧ b ≠ 0

namespace HeaderField

variable (f : HeaderField)

/-- The line of a field. -/
def line : HeaderLine where
  text := f.name ++ 58 :: (List.replicate f.blanks 32 ++ f.value)
  plain := by
    intro b hb
    obtain hb | hb := List.mem_append.mp hb
    · exact (f.name_plain b hb).1.2
    obtain rfl | hb := List.mem_cons.mp hb
    · decide
    obtain hb | hb := List.mem_append.mp hb
    · rw [List.eq_of_mem_replicate hb]
      decide
    · exact f.value_plain b hb

/-- The names of headers are the same in small and in capital letters. -/
def IsContentLength : Prop := f.name.map lowerCase = httpContentLength.map lowerCase

instance : Decidable f.IsContentLength := inferInstanceAs (Decidable (_ = _))

end HeaderField

/-- The number that digits denote. -/
def numeralValue (digits : List UInt8) : ℕ :=
  digits.foldl (fun n b => n * 10 + (b.toNat - 48)) 0

/-- A request head. The value of a `Content-Length` is a number. -/
structure RequestHead where
  line : RequestLine
  fields : List HeaderField
  numeral : ∀ f ∈ fields, f.IsContentLength → f.value ≠ [] ∧ ∀ b ∈ f.value, isDigit b = true

namespace RequestHead

variable (h : RequestHead)

def lines : List HeaderLine := h.fields.map HeaderField.line

/-- The bytes of a head. -/
def text : List UInt8 := h.line.text ++ crlf ++ headerBlock h.lines

/-- The length that a head declares, 0 without a `Content-Length`. -/
def contentLength : ℕ :=
  match h.fields.find? (·.IsContentLength) with
  | some f => numeralValue f.value
  | none => 0

end RequestHead

/-- The parser returns, and `data_len` is the length that the head declares. -/
def LengthRight (h : RequestHead) (conn : Conn) (tail : List UInt8) : Prop :=
  ∃ ret s, exec parseInMsgHeaders (.start conn (h.text ++ 0 :: tail)) = (.ok ret, s) ∧
    s.conn.dataLen = h.contentLength

/-! ## What is read -/

/-- The number that `atoi` makes of a text in a cleared buffer of 20 bytes, if the text fits. -/
def copiedNumber (text : List UInt8) : Option ℕ :=
  match storeAt (List.replicate 20 0) 0 text >>= atoi with
  | .ok z => some (uint32 z)
  | .error _ => none

/-- The text starts with one of these. -/
def startsAny (text : List UInt8) (lits : List (List UInt8)) : Prop := ∃ lit ∈ lits, lit <+: text

instance (text : List UInt8) (lits : List (List UInt8)) : Decidable (startsAny text lits) :=
  inferInstanceAs (Decidable (∃ lit ∈ lits, lit <+: text))

/-- The text in which `Connection` is found is that of an upgrade. -/
def ReadsUpgrade (text : List UInt8) : Prop := startsAny text [httpUpgrade, httpUpgradeLowerCase]

def ReadsKeepAlive (text : List UInt8) : Prop :=
  startsAny text [httpKeepAlive, httpKeepAliveLowerCase]

instance (text : List UInt8) : Decidable (ReadsUpgrade text) :=
  inferInstanceAs (Decidable (startsAny _ _))

instance (text : List UInt8) : Decidable (ReadsKeepAlive text) :=
  inferInstanceAs (Decidable (startsAny _ _))

/-- The declared length is what is read where a `Connection` header that is no upgrade is found: a
timeout that is to be read and the accepted encodings fit their buffers, and where the lookup of
`Content-Length` stops, in whichever line, stands the declared number. Where nothing is read,
the declared length is the one of before. -/
structure DeclaredIsRead (lines : List HeaderLine) (declared old : ℕ) : Prop where
  unread : headerText httpConnection lines = none → declared = old
  upgrade : ∀ c, headerText httpConnection lines = some c → ReadsUpgrade c → declared = old
  timeout : ∀ c, headerText httpConnection lines = some c → ¬ ReadsUpgrade c → ReadsKeepAlive c →
    ∀ text, headerText httpKeepAlive lines = some text → (copiedNumber text).isSome
  encoding : ∀ c, headerText httpConnection lines = some c → ¬ ReadsUpgrade c →
    ∀ text, headerText httpAcceptEncoding lines = some text → text.length ≤ 64
  absent : ∀ c, headerText httpConnection lines = some c → ¬ ReadsUpgrade c →
    headerText httpContentLength lines = none → declared = old
  read : ∀ c, headerText httpConnection lines = some c → ¬ ReadsUpgrade c →
    ∀ text, headerText httpContentLength lines = some text → copiedNumber text = some declared

/-! ## What the stages leave -/

/-- On the memory `m` the computation makes `r d` of a `data_len` of `d`, and it returns if that is
something. -/
def Leaves {α : Type} (m : List UInt8) (x : Parse α) (r : ℕ → Option ℕ) : Prop :=
  ∀ s, s.mem = m → ∀ n,
    (∃ a s', exec x s = (.ok a, s') ∧ s'.conn.dataLen = n) ↔ r s.conn.dataLen = some n

namespace Leaves

variable {α β : Type} {m : List UInt8} {x : Parse α} {r r' : ℕ → Option ℕ}

/-- A computation that returns and keeps `data_len`. -/
theorem keep (h : ∀ s, s.mem = m →
    ∃ a s', exec x s = (.ok a, s') ∧ s'.conn.dataLen = s.conn.dataLen) : Leaves m x some := by
  intro s hs n
  obtain ⟨a, s', hexec, hlen⟩ := h s hs
  constructor
  · rintro ⟨b, t, hexec', rfl⟩
    rw [hexec] at hexec'
    cases hexec'
    exact congrArg some hlen.symm
  · intro hn
    cases hn
    exact ⟨a, s', hexec, hlen⟩

theorem pure (a : α) : Leaves m (pure a) some := keep fun s _ => ⟨a, s, rfl, rfl⟩

theorem setConn {f : Conn → Conn} (hf : ∀ c, (f c).dataLen = c.dataLen) :
    Leaves m (setConn f) some :=
  keep fun s _ => ⟨(), _, rfl, hf s.conn⟩

/-- An assignment to `data_len`. -/
theorem setLength {f : Conn → Conn} {k : ℕ} (hf : ∀ c, (f c).dataLen = k) :
    Leaves m (Httpd.setConn f) fun _ => some k := by
  intro s _ n
  constructor
  · rintro ⟨a, t, hexec, rfl⟩
    cases hexec
    exact congrArg some (hf s.conn).symm
  · intro hn
    cases hn
    exact ⟨(), _, rfl, hf s.conn⟩

theorem congr (h : Leaves m x r) (hr : ∀ d, r d = r' d) : Leaves m x r' := by
  intro s hs n
  rw [← hr]
  exact h s hs n

theorem changePeriod (periodMs : ℕ) : Leaves m (changePeriod periodMs) some :=
  keep fun _ _ => ⟨(), _, rfl, rfl⟩

theorem bind {f : α → Parse β} (hx : Leaves m x r) (hmem : Keeps ParseState.mem x)
    (hf : ∀ a, Leaves m (f a) r') : Leaves m (x >>= f) (fun d => (r d).bind r') := by
  intro s hs n
  have hm := hmem s
  rw [Option.bind_eq_some_iff]
  constructor
  · rintro ⟨b, t, hexec, hlen⟩
    obtain ⟨a, s', hx', hf'⟩ := exec_bind_eq_ok.mp hexec
    rw [hx'] at hm
    exact ⟨_, (hx s hs _).mp ⟨a, s', hx', rfl⟩, (hf a s' (hm.trans hs) n).mp ⟨b, t, hf', hlen⟩⟩
  · rintro ⟨k, hk, hn⟩
    obtain ⟨a, s', hx', rfl⟩ := (hx s hs k).mpr hk
    rw [hx'] at hm
    obtain ⟨b, t, hf', hlen⟩ := (hf a s' (hm.trans hs) n).mpr hn
    exact ⟨b, t, exec_bind_eq_ok.mpr ⟨a, s', hx', hf'⟩, hlen⟩

/-- A part that leaves `data_len` alone. -/
theorem bind_keep {f : α → Parse β} (hx : Leaves m x some) (hmem : Keeps ParseState.mem x)
    (hf : ∀ a, Leaves m (f a) r) : Leaves m (x >>= f) r := hx.bind hmem hf

/-- Nothing follows a part that does not return. -/
theorem bind_none (hx : Leaves m x fun _ => none) (f : α → Parse β) :
    Leaves m (x >>= f) fun _ => none := by
  intro s hs n
  constructor
  · rintro ⟨b, t, hexec, -⟩
    obtain ⟨a, s', hx', -⟩ := exec_bind_eq_ok.mp hexec
    cases (hx s hs _).mp ⟨a, s', hx', rfl⟩
  · intro hn
    cases hn

/-- A read whose result is known. -/
theorem read {g : List UInt8 → Except Fault α} {f : α → Parse β} {v : α} (hv : g m = .ok v)
    (hf : Leaves m (f v) r) : Leaves m (readMem g >>= f) r := by
  intro s hs n
  have hexec : exec (readMem g) s = (.ok v, s) := by rw [exec_readMem, hs, hv]
  rw [exec_bind_ok hexec]
  exact hf s hs n

end Leaves

/-- A text copied out of the memory. -/
theorem exec_copyValue {m text : List UInt8} {size v e : ℕ} (htext : (m.drop v).take (e - v) = text)
    {s : ParseState} (hs : s.mem = m) :
    exec (copyValue size v e) s =
      (storeAt (List.replicate size 0) 0 text,
        { s with copies := s.copies ++ [⟨size, e - v⟩] }) := by
  unfold copyValue
  rw [exec_bind, exec_logCopy]
  show exec (readMem _) _ = _
  rw [exec_readMem]
  simp only [hs, htext]

/-- A number copied out of the memory. -/
theorem leaves_copyNumber {β : Type} {m text : List UInt8} {v e : ℕ} {f : ℤ → Parse β}
    {r : ℕ → ℕ → Option ℕ} (htext : (m.drop v).take (e - v) = text)
    (hf : ∀ z, Leaves m (f z) (r (uint32 z))) :
    Leaves m (copyValue 20 v e >>= fun buf => Exec.lift (atoi buf) >>= f)
      (fun d => (copiedNumber text).bind fun k => r k d) := by
  intro s hs n
  rw [exec_bind, exec_copyValue htext hs]
  unfold copiedNumber
  cases storeAt (List.replicate 20 0) 0 text with
  | error e' =>
    constructor
    · rintro ⟨a, t, hrun, -⟩
      cases hrun
    · intro hn
      cases hn
  | ok buf =>
    show (∃ a t, exec (Exec.lift (atoi buf) >>= f) _ = (.ok a, t) ∧ _) ↔ _
    rw [exec_bind, exec_lift]
    show _ ↔ (match atoi buf with
      | .ok z => some (uint32 z)
      | .error _ => none).bind _ = _
    cases atoi buf with
    | error e' =>
      constructor
      · rintro ⟨a, t, hrun, -⟩
        cases hrun
      · intro hn
        cases hn
    | ok z => exact hf z { s with copies := s.copies ++ [⟨20, e - v⟩] } hs n

/-- Where a lookup ends. -/
theorem lookupLine_finds {m name : List UInt8} {p : ℕ} {o : Option (List UInt8)}
    (h : Finds m (getHeaderValue m p name) o) (hcr : ∀ text, o = some text → 13 ∉ text) :
    (o = none → lookupLine m p name = .ok none) ∧
      ∀ text, o = some text → ∃ v, lookupLine m p name = .ok (some (v, some (v + text.length))) ∧
        (m.drop v).take (v + text.length - v) = text := by
  constructor
  · intro hnone
    rw [lookupLine, h.1 hnone]
    rfl
  · intro text htext
    obtain ⟨v, rest, hv, hstr⟩ := h.2 text htext
    refine ⟨v, ?_, ?_⟩
    · rw [lookupLine, hv]
      show (strstr m v crlf >>= _) = _
      rw [strstr_crlf_eq hstr (hcr text htext)]
      rfl
    · obtain ⟨t, ht⟩ := hstr.drop_eq
      rw [ht, Nat.add_sub_cancel_left, List.append_assoc, List.append_assoc, List.take_left]

theorem startsWithAny_line {m text rest : List UInt8} {p : ℕ} (h : StrAt m p (text ++ crlf ++ rest))
    (lits : List (List UInt8)) (hlits : ∀ lit ∈ lits, 0 ∉ lit ∧ 13 ∉ lit) :
    ∃ b, startsWithAny m p lits = .ok b ∧ (b = true ↔ startsAny text lits) := by
  induction lits with
  | nil => exact ⟨false, rfl, by simp [startsAny]⟩
  | cons lit lits ih =>
    obtain ⟨hnul, hcr⟩ := hlits lit List.mem_cons_self
    have hiff : lit <+: text ++ crlf ++ rest ↔ lit <+: text := by
      rw [show text ++ crlf ++ rest = text ++ 13 :: (10 :: rest) by simp [crlf, ascii]]
      exact prefix_append_sep hcr
    rw [startsWithAny, startsWith_eq h hnul]
    unfold startsAny
    rw [List.exists_mem_cons_iff]
    by_cases hpre : lit <+: text
    · refine ⟨true, ?_, by simp [hpre]⟩
      rw [decide_eq_true (hiff.mpr hpre)]
      rfl
    · obtain ⟨b, hb, hb'⟩ := ih fun l hl => hlits l (List.mem_cons_of_mem _ hl)
      refine ⟨b, ?_, ?_⟩
      · rw [decide_eq_false fun hp => hpre (hiff.mp hp)]
        exact hb
      · rw [hb']
        simp [hpre, startsAny]

/-! ## The headers -/

section

variable {m : List UInt8} {p : ℕ} {lines : List HeaderLine}
  (h : StrAt m p (crlf ++ headerBlock lines))

include h

theorem lookupLine_lines {name : List UInt8} (hname : IsName name) :
    (headerText name lines = none → lookupLine m (p + 2) name = .ok none) ∧
      ∀ text, headerText name lines = some text →
        ∃ v, lookupLine m (p + 2) name = .ok (some (v, some (v + text.length))) ∧
          (m.drop v).take (v + text.length - v) = text :=
  lookupLine_finds (getHeaderValue_lines hname h) fun _ => cr_notMem_headerText

/-- The timeout of a connection that is kept alive can be read. -/
def TimeoutFits (lines : List HeaderLine) (c : List UInt8) : Prop :=
  ReadsKeepAlive c → ∀ text, headerText httpKeepAlive lines = some text → (copiedNumber text).isSome

theorem leaves_parseKeepAlive {connStr : ℕ} {c rest : List UInt8}
    (hconn : StrAt m connStr (c ++ crlf ++ rest)) :
    (TimeoutFits lines c → Leaves m (parseKeepAlive (p + 2) connStr) some) ∧
      (¬ TimeoutFits lines c → Leaves m (parseKeepAlive (p + 2) connStr) fun _ => none) := by
  obtain ⟨b, hb, hb'⟩ := startsWithAny_line hconn
    [httpKeepAlive, httpKeepAliveLowerCase] (by decide)
  obtain ⟨hnone, hsome⟩ := lookupLine_lines h (by decide : IsName httpKeepAlive)
  have hmode : ∀ mode, Leaves m (Httpd.setConn fun c => { c with connetionMode := mode }) some :=
    fun mode => Leaves.setConn fun _ => rfl
  have hmem : ∀ f, Keeps ParseState.mem (Httpd.setConn f) := fun f => Keeps.update fun _ => rfl
  have hset : ∀ time, Leaves m (do
      Httpd.setConn fun c => { c with connectionKeepAliveTime := time }
      Httpd.changePeriod (time * 1000)) some := fun time =>
    Leaves.bind_keep (Leaves.setConn fun _ => rfl) (hmem _) fun _ => Leaves.changePeriod _
  -- the header is looked up only on a connection that is kept alive
  cases b with
  | false =>
    have hnot : ¬ ReadsKeepAlive c := fun hk => absurd (hb'.mpr hk) (by decide)
    have hleaves : Leaves m (parseKeepAlive (p + 2) connStr) some := by
      unfold parseKeepAlive
      exact Leaves.bind_keep (hmode _) (hmem _) fun _ => Leaves.read hb (Leaves.pure ())
    exact ⟨fun _ => hleaves, fun hfits => absurd (fun hk => absurd hk hnot) hfits⟩
  | true =>
    have hkeep : ReadsKeepAlive c := hb'.mp rfl
    cases htext : headerText httpKeepAlive lines with
    | none =>
      have hleaves : Leaves m (parseKeepAlive (p + 2) connStr) some := by
        unfold parseKeepAlive
        refine Leaves.bind_keep (hmode _) (hmem _) fun _ => Leaves.read hb ?_
        exact Leaves.bind_keep (hmode _) (hmem _) fun _ => Leaves.read (hnone htext) (hset _)
      refine ⟨fun _ => hleaves, fun hfits => absurd (fun _ text hsome' => ?_) hfits⟩
      rw [htext] at hsome'
      cases hsome'
    | some text =>
      obtain ⟨v, hv, hcopy⟩ := hsome text htext
      have hleaves : Leaves m (parseKeepAlive (p + 2) connStr)
          (fun d => (copiedNumber text).bind fun _ => some d) := by
        unfold parseKeepAlive
        refine Leaves.bind_keep (hmode _) (hmem _) fun _ => Leaves.read hb ?_
        refine Leaves.bind_keep (hmode _) (hmem _) fun _ => Leaves.read hv ?_
        exact leaves_copyNumber hcopy fun z => hset (uint32 z)
      -- the number is copied behind `timeout=`, and copying it may fail
      have hiff : TimeoutFits lines c ↔ (copiedNumber text).isSome := by
        constructor
        · exact fun hfits => hfits hkeep text htext
        · intro hfits _ text' htext'
          rw [htext] at htext'
          cases htext'
          exact hfits
      rw [hiff]
      cases hnumber : copiedNumber text with
      | none =>
        rw [hnumber] at hleaves
        exact ⟨fun hfits => (by cases hfits), fun _ => hleaves⟩
      | some k =>
        rw [hnumber] at hleaves
        exact ⟨fun _ => hleaves, fun hfits => absurd rfl hfits⟩

theorem leaves_parseContentLength :
    (headerText httpContentLength lines = none →
      Leaves m (parseContentLength (p + 2)) some) ∧
    ∀ text, headerText httpContentLength lines = some text →
      Leaves m (parseContentLength (p + 2)) fun _ => copiedNumber text := by
  obtain ⟨hnone, hsome⟩ := lookupLine_lines h (by decide : IsName httpContentLength)
  unfold parseContentLength
  constructor
  · exact fun htext => Leaves.read (hnone htext) (Leaves.pure ())
  · intro text htext
    obtain ⟨v, hv, hcopy⟩ := hsome text htext
    refine Leaves.read hv (Leaves.congr (leaves_copyNumber (r := fun k _ => some k) hcopy
      fun z => Leaves.setLength fun _ => rfl) fun d => ?_)
    cases copiedNumber text <;> rfl

theorem leaves_parseAcceptEncoding :
    ((∀ text, headerText httpAcceptEncoding lines = some text → text.length ≤ 64) →
      Leaves m (parseAcceptEncoding (p + 2)) some) ∧
    (¬ (∀ text, headerText httpAcceptEncoding lines = some text → text.length ≤ 64) →
      Leaves m (parseAcceptEncoding (p + 2)) fun _ => none) := by
  obtain ⟨hnone, hsome⟩ := lookupLine_lines h (by decide : IsName httpAcceptEncoding)
  unfold parseAcceptEncoding
  cases htext : headerText httpAcceptEncoding lines with
  | none =>
    exact ⟨fun _ => Leaves.read (hnone htext) (Leaves.pure ()),
      fun hfits => absurd (fun text ht => by cases ht) hfits⟩
  | some text =>
    obtain ⟨v, hv, hcopy⟩ := hsome text htext
    have hiff : (∀ text', some text = some text' → text'.length ≤ 64) ↔ text.length ≤ 64 :=
      ⟨fun hfits => hfits text rfl, fun hle text' heq => Option.some.inj heq ▸ hle⟩
    rw [hiff]
    constructor
    · intro hle
      refine Leaves.read hv (Leaves.keep fun s hs => ?_)
      -- the value fits into the 64 bytes that are there for it
      have hstore : storeAt (List.replicate 64 0) 0 text = _ := storeAt_ok (by simpa using hle)
      rw [exec_bind, exec_copyValue hcopy hs, hstore]
      exact ⟨(), _, rfl, rfl⟩
    · intro hgt
      refine Leaves.read hv fun s hs n => ?_
      have hstore : storeAt (List.replicate 64 0) 0 text = _ :=
        storeAt_overrun (by simpa using hgt)
      constructor
      · rintro ⟨a, t, hrun, -⟩
        rw [exec_bind, exec_copyValue hcopy hs, hstore] at hrun
        cases hrun
      · intro hn
        cases hn

/-- All headers of a request that is no upgrade. -/
theorem leaves_parsePlain {connStr : ℕ} {c rest : List UInt8}
    (hconn : StrAt m connStr (c ++ crlf ++ rest)) {r : ℕ → Option ℕ}
    (hlength : Leaves m (parseContentLength (p + 2)) r) :
    (TimeoutFits lines c ∧
        (∀ text, headerText httpAcceptEncoding lines = some text → text.length ≤ 64) →
      Leaves m (parsePlain (p + 2) connStr) r) ∧
    (¬ (TimeoutFits lines c ∧
        ∀ text, headerText httpAcceptEncoding lines = some text → text.length ≤ 64) →
      Leaves m (parsePlain (p + 2) connStr) fun _ => none) := by
  obtain ⟨htimeout, htimeout'⟩ := leaves_parseKeepAlive h hconn
  obtain ⟨hencoding, hencoding'⟩ := leaves_parseAcceptEncoding h
  -- the content type is looked up and not used
  have htype : ∃ o, getHeaderValue m (p + 2) httpContentType = .ok o := by
    obtain ⟨hnone, hsome⟩ := getHeaderValue_lines (by decide : IsName httpContentType) h
    cases htext : headerText httpContentType lines with
    | none => exact ⟨none, hnone htext⟩
    | some text =>
      obtain ⟨v, rest, hv, -⟩ := hsome text htext
      exact ⟨some v, hv⟩
  obtain ⟨o, ho⟩ := htype
  have hmem₁ : Keeps ParseState.mem (parseKeepAlive (p + 2) connStr) :=
    (keeps_parseKeepAlive _ _).comp Prod.fst
  have hmem₂ : Keeps ParseState.mem (parseContentLength (p + 2)) :=
    (keeps_parseContentLength _).comp Prod.fst
  have hmem₃ : Keeps ParseState.mem (parseAcceptEncoding (p + 2)) :=
    (keeps_parseAcceptEncoding _).comp Prod.fst
  have hlast : ∀ _ : Unit, Leaves m (do
      let _contType ← readMem (getHeaderValue · (p + 2) httpContentType)
      pure (0 : ℤ)) some := fun _ => Leaves.read ho (Leaves.pure 0)
  unfold parsePlain
  constructor
  · rintro ⟨hfits, hfits'⟩
    refine Leaves.bind_keep (htimeout hfits) hmem₁ fun _ => ?_
    refine Leaves.congr (hlength.bind hmem₂ fun _ =>
      Leaves.bind_keep (hencoding hfits') hmem₃ hlast) fun d => ?_
    cases r d <;> rfl
  · intro hnot
    -- one of the two copies fails, the one that comes first decides
    by_cases hfits : TimeoutFits lines c
    · refine Leaves.bind_keep (htimeout hfits) hmem₁ fun _ => ?_
      refine Leaves.congr (hlength.bind hmem₂ fun _ =>
        (hencoding' fun hfits' => hnot ⟨hfits, hfits'⟩).bind hmem₃ hlast) fun d => ?_
      cases r d <;> rfl
    · exact (htimeout' hfits).bind_none _

/-- The headers of an upgrade, whatever they are. -/
theorem leaves_parseUpgrade : Leaves m (parseUpgrade (p + 2)) some := by
  obtain ⟨hnone, hsome⟩ := getHeaderValue_lines (by decide : IsName httpUpgrade) h
  obtain ⟨hnone', hsome'⟩ := getHeaderValue_lines (by decide : IsName webSocketKeyIdentifier) h
  unfold parseUpgrade
  cases htext : headerText httpUpgrade lines with
  | none => exact Leaves.read (hnone htext) (Leaves.pure _)
  | some text =>
    obtain ⟨v, rest, hv, hstr⟩ := hsome text htext
    obtain ⟨b, hb, -⟩ := startsWithAny_line hstr
      [webSocketIdentifierUpper, webSocketIdentifierLower] (by decide)
    refine Leaves.read hv (Leaves.read hb ?_)
    cases b with
    | false => exact Leaves.pure _
    | true =>
      cases hkey : headerText webSocketKeyIdentifier lines with
      | none => exact Leaves.read (hnone' hkey) (Leaves.pure _)
      | some key =>
        obtain ⟨k, rest', hk, hstr'⟩ := hsome' key hkey
        -- the key is cut at the end of its line, which lies within the memory
        have hend : keyEnd m k = .ok (k + key.length) := by
          rw [keyEnd, strstr_crlf_eq hstr' (cr_notMem_headerText hkey)]
          rfl
        have hlt : k + key.length < m.length := by
          have hlen := hstr'.length_lt
          rw [List.length_append, List.length_append] at hlen
          omega
        refine Leaves.read hk (Leaves.read hend (Leaves.keep fun s hs => ?_))
        rw [exec_bind, exec_poke, if_pos (hs ▸ hlt)]
        exact ⟨0, _, rfl, rfl⟩

/-- The headers behind the request line. -/
theorem leaves_parseHeaderLines {r : ℕ → Option ℕ}
    (hnone : headerText httpConnection lines = none → Leaves m (pure (0 : ℤ)) r)
    (hsome : ∀ c, headerText httpConnection lines = some c →
      (ReadsUpgrade c → Leaves m (parseUpgrade (p + 2)) r) ∧
      (¬ ReadsUpgrade c → ∀ connStr rest, StrAt m connStr (c ++ crlf ++ rest) →
        Leaves m (parsePlain (p + 2) connStr) r)) :
    Leaves m (parseHeaderLines (p + 2)) r := by
  -- the host may be missing, its lookup does not fail
  have hhost : ∃ o, getHost m (p + 2) = .ok o := by
    obtain ⟨hnone, hsome⟩ := getHeaderValue_lines (by decide : IsName httpHost) h
    unfold getHost
    cases htext : headerText httpHost lines with
    | none => exact ⟨none, hnone htext⟩
    | some text =>
      obtain ⟨v, rest, hv, -⟩ := hsome text htext
      exact ⟨some v, hv⟩
  obtain ⟨o, ho⟩ := hhost
  obtain ⟨hlookup, hlookup'⟩ := getHeaderValue_lines (by decide : IsName httpConnection) h
  unfold parseHeaderLines
  refine Leaves.read ho (Leaves.bind_keep (Leaves.setConn fun _ => rfl) (Keeps.update fun _ => rfl)
    fun _ => ?_)
  cases htext : headerText httpConnection lines with
  | none => exact Leaves.read (hlookup htext) (hnone htext)
  | some c =>
    obtain ⟨v, rest, hv, hstr⟩ := hlookup' c htext
    obtain ⟨b, hb, hb'⟩ := startsWithAny_line hstr [httpUpgrade, httpUpgradeLowerCase]
      (by decide)
    refine Leaves.read hv (Leaves.read hb ?_)
    cases b with
    | true => exact (hsome c htext).1 (hb'.mp rfl)
    | false => exact (hsome c htext).2 (fun hu => absurd (hb'.mpr hu) (by decide)) v rest hstr

end

/-! ## The condition -/

section

variable {lines : List HeaderLine} {declared old : ℕ}

theorem declaredIsRead_of_none (hnone : headerText httpConnection lines = none) :
    DeclaredIsRead lines declared old ↔ declared = old := by
  have hno : ∀ {c : List UInt8} {P : Prop}, headerText httpConnection lines = some c → P := by
    intro c P hsome
    rw [hnone] at hsome
    cases hsome
  exact ⟨fun h => h.unread hnone, fun h => ⟨fun _ => h, fun _ hc => hno hc, fun _ hc => hno hc,
    fun _ hc => hno hc, fun _ hc => hno hc, fun _ hc => hno hc⟩⟩

theorem declaredIsRead_of_upgrade {c : List UInt8} (hc : headerText httpConnection lines = some c)
    (hupgrade : ReadsUpgrade c) : DeclaredIsRead lines declared old ↔ declared = old := by
  have hno : ∀ {c' : List UInt8} {P : Prop}, headerText httpConnection lines = some c' →
      ¬ ReadsUpgrade c' → P := by
    intro c' P hsome hnot
    rw [hc] at hsome
    cases hsome
    exact absurd hupgrade hnot
  exact ⟨fun h => h.upgrade c hc hupgrade, fun h => ⟨fun _ => h, fun _ _ _ => h,
    fun _ hc' hnot => hno hc' hnot, fun _ hc' hnot => hno hc' hnot, fun _ hc' hnot => hno hc' hnot,
    fun _ hc' hnot => hno hc' hnot⟩⟩

theorem declaredIsRead_of_plain {c : List UInt8} (hc : headerText httpConnection lines = some c)
    (hplain : ¬ ReadsUpgrade c) :
    DeclaredIsRead lines declared old ↔
      (TimeoutFits lines c ∧
        ∀ text, headerText httpAcceptEncoding lines = some text → text.length ≤ 64) ∧
      (headerText httpContentLength lines = none → declared = old) ∧
      ∀ text, headerText httpContentLength lines = some text →
        copiedNumber text = some declared := by
  constructor
  · intro h
    exact ⟨⟨h.timeout c hc hplain, h.encoding c hc hplain⟩, h.absent c hc hplain, h.read c hc hplain⟩
  · rintro ⟨⟨htimeout, hencoding⟩, habsent, hread⟩
    have hsame : ∀ {c' : List UInt8}, headerText httpConnection lines = some c' → c' = c := by
      intro c' hc'
      rw [hc] at hc'
      exact (Option.some.inj hc').symm
    refine ⟨fun hnone => ?_, fun c' hc' hupgrade => ?_, fun c' hc' _ hkeep => ?_,
      fun _ _ _ => hencoding, fun _ _ _ => habsent, fun _ _ _ => hread⟩
    · rw [hc] at hnone
      cases hnone
    · exact absurd (hsame hc' ▸ hupgrade) hplain
    · exact htimeout (hsame hc' ▸ hkeep)

end

/-! ## Heads -/

theorem nul_notMem_headerBlock (lines : List HeaderLine) : 0 ∉ headerBlock lines := by
  intro hmem
  obtain hmem | hmem := List.mem_append.mp hmem
  · obtain ⟨l, -, hl⟩ := List.mem_flatMap.mp hmem
    obtain hl | hl := List.mem_append.mp hl
    · exact (l.plain 0 hl).2.2 rfl
    · exact absurd hl (by decide)
  · exact absurd hmem (by decide)

/-- Behind a request line that can be taken apart it is the headers that matter. -/
theorem RequestHead.lengthRight_iff_of_leaves (h : RequestHead) (conn : Conn) (tail : List UInt8)
    (hclear : h.line.VersionClear) {r : ℕ → Option ℕ}
    (hleaves : ∀ m, StrAt m h.line.text.length (crlf ++ headerBlock h.lines) →
      Leaves m (parseHeaderLines (h.line.text.length + 2)) r) :
    LengthRight h conn tail ↔ r conn.dataLen = some h.contentLength := by
  have hstr : StrAt (h.text ++ 0 :: tail) 0 (h.line.text ++ crlf ++ headerBlock h.lines) :=
    h.line.strAt_head (nul_notMem_headerBlock h.lines) rfl
  -- the request line is cut in place, the lines behind it are as they were
  obtain ⟨s, hexec, -, -, -, hdrop, -⟩ :=
    parseRequestLine_clear (s := .start conn (h.text ++ 0 :: tail)) hstr hclear
  have hlines : StrAt s.mem h.line.text.length (crlf ++ headerBlock h.lines) := by
    have hadvance := hstr.advance (k := h.line.text.length) (by
      rw [List.append_assoc, List.length_append]
      exact Nat.le_add_right _ _)
    rw [Nat.zero_add, List.append_assoc, List.drop_left] at hadvance
    obtain ⟨hnul, t, ht⟩ := hadvance
    exact ⟨hnul, t, hdrop.trans ht⟩
  have hlen : s.conn.dataLen = conn.dataLen := by
    have hkeep := keeps_parseRequestLine_frame (.start conn (h.text ++ 0 :: tail))
    rw [hexec] at hkeep
    exact congrArg (fun t => t.2.2.2) hkeep
  have hrun : exec parseInMsgHeaders (.start conn (h.text ++ 0 :: tail)) =
      exec (parseHeaderLines (h.line.text.length + 2)) s := exec_bind_ok hexec
  unfold LengthRight
  rw [hrun, ← hlen]
  exact hleaves s.mem hlines s rfl h.contentLength

/-- The parser gets the length of a body right if and only if the request line can be taken apart
and the declared length is what is read. -/
theorem lengthRight_iff (h : RequestHead) (conn : Conn) (tail : List UInt8) :
    LengthRight h conn tail ↔
      h.line.VersionClear ∧ DeclaredIsRead h.lines h.contentLength conn.dataLen := by
  by_cases hclear : h.line.VersionClear
  · rw [and_iff_right hclear]
    cases hconn : headerText httpConnection h.lines with
    | none =>
      rw [declaredIsRead_of_none hconn, h.lengthRight_iff_of_leaves conn tail hclear (r := some)
        fun m hm => leaves_parseHeaderLines hm (fun _ => Leaves.pure 0) fun c hc => ?_]
      · rw [Option.some_inj, eq_comm]
      · rw [hconn] at hc
        cases hc
    | some c =>
      have hsame : ∀ {c' : List UInt8}, headerText httpConnection h.lines = some c' → c' = c := by
        intro c' hc'
        rw [hconn] at hc'
        exact (Option.some.inj hc').symm
      have hno : ∀ {P : Prop}, headerText httpConnection h.lines = none → P := by
        intro P hnone
        rw [hconn] at hnone
        cases hnone
      by_cases hupgrade : ReadsUpgrade c
      · rw [declaredIsRead_of_upgrade hconn hupgrade,
          h.lengthRight_iff_of_leaves conn tail hclear (r := some) fun m hm =>
            leaves_parseHeaderLines hm hno fun c' hc' => ⟨fun _ => leaves_parseUpgrade hm,
              fun hnot => absurd (hsame hc' ▸ hupgrade) hnot⟩]
        rw [Option.some_inj, eq_comm]
      rw [declaredIsRead_of_plain hconn hupgrade]
      -- the headers of a request that is no upgrade, whatever they leave in `data_len`
      have hplain : ∀ {r : ℕ → Option ℕ}, (∀ m, StrAt m h.line.text.length
          (crlf ++ headerBlock h.lines) → ∀ connStr rest, StrAt m connStr (c ++ crlf ++ rest) →
            Leaves m (parsePlain (h.line.text.length + 2) connStr) r) →
          (LengthRight h conn tail ↔ r conn.dataLen = some h.contentLength) := by
        intro r hleaves
        refine h.lengthRight_iff_of_leaves conn tail hclear fun m hm => ?_
        refine leaves_parseHeaderLines hm hno fun c' hc' => ?_
        rw [hsame hc']
        exact ⟨fun hu => absurd hu hupgrade, fun _ => hleaves m hm⟩
      by_cases hfits : TimeoutFits h.lines c ∧
          ∀ text, headerText httpAcceptEncoding h.lines = some text → text.length ≤ 64
      · rw [and_iff_right hfits]
        cases hlength : headerText httpContentLength h.lines with
        | none =>
          rw [hplain fun m hm connStr rest hstr =>
            (leaves_parsePlain hm hstr ((leaves_parseContentLength hm).1 hlength)).1 hfits]
          simp [eq_comm]
        | some text =>
          rw [hplain fun m hm connStr rest hstr =>
            (leaves_parsePlain hm hstr ((leaves_parseContentLength hm).2 text hlength)).1 hfits]
          simp
      · rw [hplain (r := fun _ => none) fun m hm connStr rest hstr => ?_]
        · exact ⟨fun hn => (by cases hn), fun hread => absurd hread.1 hfits⟩
        · cases hlength : headerText httpContentLength h.lines with
          | none =>
            exact (leaves_parsePlain hm hstr ((leaves_parseContentLength hm).1 hlength)).2 hfits
          | some text =>
            exact (leaves_parsePlain hm hstr
              ((leaves_parseContentLength hm).2 text hlength)).2 hfits
  · constructor
    · rintro ⟨ret, s, hexec, -⟩
      have hstr : StrAt (h.text ++ 0 :: tail) 0 (h.line.text ++ crlf ++ headerBlock h.lines) :=
        h.line.strAt_head (nul_notMem_headerBlock h.lines) rfl
      -- the way back to the target leads out of the memory
      have hfault : exec parseInMsgHeaders (.start conn (h.text ++ 0 :: tail)) = (.error .read, _) :=
        exec_bind_error (parseRequestLine_not_clear (s := .start conn (h.text ++ 0 :: tail)) hstr hclear)
      rw [hfault] at hexec
      cases hexec
    · exact fun hread => absurd hread.1 hclear

/-- The declared length is a matter of the `Content-Length` headers alone. -/
theorem RequestHead.contentLength_congr {h h' : RequestHead}
    (hsame : h.fields.filter (·.IsContentLength) = h'.fields.filter (·.IsContentLength)) :
    h.contentLength = h'.contentLength := by
  unfold contentLength
  rw [← List.head?_filter, ← List.head?_filter, hsame]

/-- Heads with the same `Content-Length` get the same `data_len` if the parser is right for both. -/
theorem dataLen_congr {h h' : RequestHead} {conn conn' : Conn} {tail tail' : List UInt8}
    (hsame : h.fields.filter (·.IsContentLength) = h'.fields.filter (·.IsContentLength))
    (hright : LengthRight h conn tail) (hright' : LengthRight h' conn' tail') :
    (exec parseInMsgHeaders (.start conn (h.text ++ 0 :: tail))).2.conn.dataLen =
      (exec parseInMsgHeaders (.start conn' (h'.text ++ 0 :: tail'))).2.conn.dataLen := by
  obtain ⟨ret, s, hexec, hlen⟩ := hright
  obtain ⟨ret', s', hexec', hlen'⟩ := hright'
  rw [hexec, hexec', hlen, hlen']
  exact RequestHead.contentLength_congr hsame

theorem digitsFrom_numeral {digits : List UInt8} (h : ∀ b ∈ digits, isDigit b = true)
    (bs : List UInt8) (acc : ℕ) :
    digitsFrom acc (digits ++ 0 :: bs) =
      .ok (digits.foldl (fun n b => n * 10 + (b.toNat - 48)) acc) := by
  induction digits generalizing acc with
  | nil => rfl
  | cons d digits ih =>
    rw [List.cons_append, digitsFrom, if_pos (h d List.mem_cons_self),
      ih fun b hb => h b (List.mem_cons_of_mem _ hb)]
    rfl

/-- A number of at most 19 digits is read as it stands if it is below 2^31, and as 2^31 - 1 from
there on. -/
theorem copiedNumber_numeral {digits : List UInt8} (hne : digits ≠ [])
    (h : ∀ b ∈ digits, isDigit b = true) (hlen : digits.length < 20) :
    copiedNumber digits = some (min (numeralValue digits) (2 ^ 31 - 1)) := by
  obtain ⟨d, ds, rfl⟩ := List.exists_cons_of_ne_nil hne
  have hd := h d List.mem_cons_self
  have hspace : isSpace d = false := by
    unfold isDigit at hd
    unfold isSpace
    simp only [Bool.and_eq_true, decide_eq_true_eq, UInt8.le_iff_toNat_le] at hd
    simp [← UInt8.toNat_inj, UInt8.le_iff_toNat_le] at hd ⊢
    omega
  have hsign : d ≠ 45 ∧ d ≠ 43 := by
    constructor <;> rintro rfl <;> exact absurd hd (by decide)
  obtain ⟨k, hk⟩ : ∃ k, 20 - (d :: ds).length = k + 1 := ⟨20 - (d :: ds).length - 1, by omega⟩
  have hstore : storeAt (List.replicate 20 0) 0 (d :: ds) =
      .ok (d :: ds ++ 0 :: List.replicate k 0) := by
    rw [storeAt_ok (by rw [List.length_replicate]; omega), Nat.zero_add, List.drop_replicate, hk]
    rfl
  have hatoi : atoi (d :: ds ++ 0 :: List.replicate k 0) =
      .ok (min (numeralValue (d :: ds)) (2 ^ 31 - 1) : ℕ) := by
    show (if isSpace d then atoi _ else atoiSigned (d :: (ds ++ 0 :: List.replicate k 0))) = _
    rw [hspace, if_neg (by decide), atoiSigned, if_neg hsign.1, if_neg hsign.2,
      ← List.cons_append, digitsFrom_numeral h]
    rfl
  unfold copiedNumber
  rw [hstore]
  show (match atoi _ with
    | .ok z => some (uint32 z)
    | .error _ => none) = _
  rw [hatoi]
  show some (uint32 _) = _
  unfold uint32
  congr 1
  omega

def hostField : HeaderField := ⟨httpHost, 1, ascii "w-link", by decide +kernel, by decide +kernel⟩

def lengthField : HeaderField :=
  ⟨httpContentLength, 1, ascii "5", by decide +kernel, by decide +kernel⟩

def closeField : HeaderField :=
  ⟨httpConnection, 1, ascii "close", by decide +kernel, by decide +kernel⟩

/-- `POST /POST HTTP/1.1` with a body of 5 bytes. -/
def lengthHead : RequestHead where
  line := { postTargetLine with method := .post, method_ne := by decide }
  fields := [hostField, lengthField]
  numeral := by decide +kernel

/-- The same with `Connection: close`. -/
def lengthHeadClose : RequestHead where
  line := lengthHead.line
  fields := [hostField, closeField, lengthField]
  numeral := by decide +kernel

/-- Without a `Connection` header the body is lost. -/
theorem not_lengthRight_noConnection :
    ¬ LengthRight lengthHead .fresh [0] ∧ LengthRight lengthHeadClose .fresh [0] := by
  constructor
  · intro h
    have hread := ((lengthRight_iff lengthHead .fresh [0]).mp h).2.unread (by decide +kernel)
    exact absurd hread (by decide +kernel)
  · have hconn : headerText httpConnection lengthHeadClose.lines = some (ascii "close") := by
      decide +kernel
    have hlength : headerText httpContentLength lengthHeadClose.lines = some (ascii "5") := by
      decide +kernel
    refine (lengthRight_iff lengthHeadClose .fresh [0]).mpr ⟨⟨by decide, by decide⟩, ?_⟩
    refine (declaredIsRead_of_plain hconn (by decide +kernel)).mpr ⟨⟨?_, ?_⟩, ?_, ?_⟩
    · exact fun hkeep => absurd hkeep (by decide +kernel)
    · intro text htext
      rw [show headerText httpAcceptEncoding lengthHeadClose.lines = none by decide +kernel] at htext
      cases htext
    · intro hnone
      rw [hlength] at hnone
      cases hnone
    · intro text htext
      rw [hlength] at htext
      cases htext
      decide +kernel

end WLink.Httpd
