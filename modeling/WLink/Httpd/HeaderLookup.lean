import WLink.Httpd.UtilsTheorems

/-!
# Looking up a header among lines

`HTTPd_Get_Header_Value` searches the text of all header lines for the name. On lines without CR,
LF and NUL its result is a matter of the lines one by one: `lineValue` is what the search comes to
in one line, `headerText` the first line where it stops, and `getHeaderValue_lines` says that the
lookup gives the place of that text. A line is left as soon as the name stands in it behind
another byte than a blank or a colon, and the name counts wherever a colon follows it, also inside
a value.

* `HeaderLine`, `headerBlock` -- header lines and their text
* `headerText` -- the text that a lookup finds
-/

namespace WLink.Httpd

open WLink.Lib CString

/-! ## Lines -/

/-- A header line without its end. -/
structure HeaderLine where
  text : List UInt8
  plain : ∀ b ∈ text, b ≠ 13 ∧ b ≠ 10 ∧ b ≠ 0

/-- The lines of a head and the empty line behind them. -/
def headerBlock (lines : List HeaderLine) : List UInt8 :=
  lines.flatMap (fun l => l.text ++ crlf) ++ crlf

/-- A name may stand behind this byte. -/
def isNameBreak (b : UInt8) : Bool := b = 32 || b = 58

/-- What a lookup finds in the rest of a line, read for at most so many bytes; `ok` if a name may
stand at its beginning. -/
def lineValueFrom (name : List UInt8) : ℕ → Bool → List UInt8 → Option (List UInt8)
  | 0, _, _ => none
  | _ + 1, _, [] => none
  | n + 1, ok, b :: bs =>
    if name.isPrefixOf (b :: bs) then
      if ok then
        match ((b :: bs).drop name.length).dropWhile (· = 32) with
        | [] => none
        | c :: v =>
          if c = 58 then some (v.dropWhile (· = 32)) else lineValueFrom name n (isNameBreak c) v
      else none  -- the search goes on in the next line
    else lineValueFrom name n (isNameBreak b) bs

def lineValue (name : List UInt8) (l : HeaderLine) : Option (List UInt8) :=
  lineValueFrom name l.text.length true l.text

/-- The text from the place where a lookup of the name stops to the end of that line. -/
def headerText (name : List UInt8) (lines : List HeaderLine) : Option (List UInt8) :=
  lines.findSome? (lineValue name)

/-- That text and the lines behind its line. -/
def headerPlace (name : List UInt8) : List HeaderLine → Option (List UInt8 × List HeaderLine)
  | [] => none
  | l :: lines =>
    match lineValue name l with
    | some text => some (text, lines)
    | none => headerPlace name lines

@[simp] theorem lineValueFrom_nil (name : List UInt8) (n : ℕ) (ok : Bool) :
    lineValueFrom name n ok [] = none := by
  cases n <;> rfl

/-- A line in which the name does not occur. -/
theorem lineValueFrom_of_not_infix {name : List UInt8} (n : ℕ) (ok : Bool) (l : List UInt8)
    (h : ¬ name <:+: l) : lineValueFrom name n ok l = none := by
  induction n generalizing ok l with
  | zero => rfl
  | succ n ih =>
    cases l with
    | nil => rfl
    | cons b bs =>
      have hpre : ¬ name.isPrefixOf (b :: bs) = true :=
        fun hp => h (List.isPrefixOf_iff_prefix.mp hp).isInfix
      rw [lineValueFrom, if_neg hpre]
      exact ih _ _ fun hi => h (List.infix_cons hi)

/-- What is found is the end of a line. -/
theorem lineValueFrom_suffix {name : List UInt8} {n : ℕ} {ok : Bool} {l text : List UInt8}
    (h : lineValueFrom name n ok l = some text) : text <:+ l := by
  induction n generalizing ok l with
  | zero => cases h
  | succ n ih =>
    cases l with
    | nil => cases h
    | cons b bs =>
      rw [lineValueFrom] at h
      split at h
      · split at h
        · have hsub : ((b :: bs).drop name.length).dropWhile (· = 32) <:+ b :: bs :=
            (List.dropWhile_suffix _).trans (List.drop_suffix _ _)
          split at h
          · cases h
          · next c v hrest =>
            rw [hrest] at hsub
            have hv : v <:+ b :: bs := (List.suffix_cons c v).trans hsub
            split at h
            · cases h
              exact (List.dropWhile_suffix _).trans hv
            · exact (ih h).trans hv
        · cases h
      · exact (ih h).trans (List.suffix_cons b bs)

theorem cr_notMem_headerText {name text : List UInt8} {lines : List HeaderLine}
    (h : headerText name lines = some text) : 13 ∉ text := by
  obtain ⟨l, -, hl⟩ := List.exists_of_findSome?_eq_some h
  exact fun hmem => (l.plain 13 ((lineValueFrom_suffix hl).subset hmem)).1 rfl

/-! ## One step of the search -/

section

variable {m name s : List UInt8} {p : ℕ}

/-- The lookup found the text, up to a line end, or it found nothing. -/
def Finds (m : List UInt8) (r : Except Fault (Option ℕ)) (o : Option (List UInt8)) : Prop :=
  (o = none → r = .ok none) ∧
    ∀ text, o = some text → ∃ v rest, r = .ok (some v) ∧ StrAt m v (text ++ crlf ++ rest)

/-- The lookup found the text, up to the end of its line and with these lines behind it, or it found
nothing. -/
def FindsPlace (m : List UInt8) (r : Except Fault (Option ℕ))
    (o : Option (List UInt8 × List HeaderLine)) : Prop :=
  (o = none → r = .ok none) ∧
    ∀ text lines, o = some (text, lines) →
      ∃ v, r = .ok (some v) ∧ StrAt m v (text ++ crlf ++ headerBlock lines)

theorem FindsPlace.finds {r : Except Fault (Option ℕ)} {o : Option (List UInt8 × List HeaderLine)}
    (h : FindsPlace m r o) : Finds m r (o.map Prod.fst) := by
  refine ⟨fun hnone => h.1 (Option.map_eq_none_iff.mp hnone), fun text htext => ?_⟩
  obtain ⟨⟨text, lines⟩, hplace, rfl⟩ := Option.map_eq_some_iff.mp htext
  obtain ⟨v, hv, hstr⟩ := h.2 text lines hplace
  exact ⟨v, headerBlock lines, hv, hstr⟩

/-- Where the name does not stand the search goes on with the next byte. -/
theorem headerValueLoop_step {b : UInt8} {bs : List UInt8} (h : StrAt m p (b :: bs))
    (hname : IsName name) (hpre : ¬ name <+: b :: bs) (fuel : ℕ) :
    headerValueLoop m name fuel p = headerValueLoop m name fuel (p + 1) := by
  have hrest : StrAt m (p + 1) bs := h.advance (k := 1) (by simp)
  have hsearch : strstr m p name = strstr m (p + 1) name := by
    rw [strstr_eq h hname.nul_notMem hname.ne_nil, strstr_eq hrest hname.nul_notMem hname.ne_nil,
      findSub_cons_neg hpre]
    cases findSub name bs with
    | none => rfl
    | some k =>
      show Except.ok (some (p + (k + 1))) = Except.ok (some (p + 1 + k))
      rw [Nat.add_assoc, Nat.add_comm k 1]
  cases fuel with
  | zero => rfl
  | succ fuel => rw [headerValueLoop, headerValueLoop, hsearch]

/-- Behind a byte of a line. -/
theorem atHeaderName_behind {b : UInt8} (hp : 1 ≤ p) (hb : m[p]? = some b) (hlf : b ≠ 10)
    (hnul : b ≠ 0) : atHeaderName m (p + 1) = .ok (isNameBreak b) := by
  obtain ⟨a, ha, -⟩ := readAt_ok (m := m) (q := p - 1)
    (Nat.lt_of_le_of_lt (Nat.sub_le p 1) (List.getElem?_eq_some_iff.mp hb).1)
  obtain ⟨h₁, rfl⟩ := List.getElem?_eq_some_iff.mp ha
  obtain ⟨h₂, rfl⟩ := List.getElem?_eq_some_iff.mp hb
  have hdrop : m.drop (p - 1) = m[p - 1] :: m[p] :: m.drop (p + 1) := by
    rw [List.drop_eq_getElem_cons h₁, show p - 1 + 1 = p by omega, List.drop_eq_getElem_cons h₂]
  have hstarts : startsWith m (p - 1) crlf = .ok false := by
    rw [startsWith, hdrop]
    show startsFrom [13, 10] _ = _
    simp [startsFrom, hlf]
  unfold atHeaderName isNameBreak
  rw [if_neg (by omega), show p + 1 - 2 = p - 1 by omega, hstarts, show p + 1 - 1 = p from rfl]
  show (readAt m p >>= _) = _
  rw [readAt_eq hb]
  simp [bind, Except.bind, pure, Except.pure, hnul]

/-- At the beginning of a line. -/
theorem atHeaderName_lineStart (h : StrAt m p (crlf ++ s)) :
    atHeaderName m (p + 2) = .ok true := by
  have hstarts : startsWith m p crlf = .ok true := by
    rw [startsWith_eq h (by decide)]
    simp
  unfold atHeaderName
  rw [if_neg (by omega), Nat.add_sub_cancel, hstarts]
  rfl

/-! ## The search -/

/-- Blanks end in front of the end of the line. -/
theorem skipByte_line {l rest : List UInt8} (h : StrAt m p (l ++ crlf ++ rest)) :
    ∃ q, skipByte m p 32 = .ok q ∧ p ≤ q ∧ StrAt m q (l.dropWhile (· = 32) ++ crlf ++ rest) := by
  have hsplit : l ++ crlf ++ rest = l.takeWhile (· = 32) ++
      (l.dropWhile (· = 32) ++ crlf ++ rest) := by
    rw [← List.append_assoc, ← List.append_assoc, List.takeWhile_append_dropWhile]
  have hblanks : (l ++ crlf ++ rest).takeWhile (· = 32) = l.takeWhile (· = 32) := by
    rw [List.append_assoc, List.takeWhile_append]
    split
    · next hall =>
      show l ++ [] = _
      rw [List.append_nil]
      exact ((List.takeWhile_prefix _).eq_of_length hall).symm
    · rfl
  refine ⟨_, skipByte_eq h (by decide), Nat.le_add_right _ _, ?_⟩
  rw [hblanks]
  have hadvance := h.advance (k := (l.takeWhile (· = 32)).length) (by
    rw [hsplit, List.length_append]
    exact Nat.le_add_right _ _)
  rw [hsplit, List.drop_left] at hadvance
  exact hadvance

/-- The search finds the name where it stands. -/
theorem strstr_at (h : StrAt m p s) (hname : IsName name) (hpre : name <+: s) :
    strstr m p name = .ok (some p) := by
  rw [strstr_eq h hname.nul_notMem hname.ne_nil]
  cases s with
  | nil => exact absurd (List.prefix_nil.mp hpre) hname.ne_nil
  | cons b bs =>
    rw [findSub_cons_pos hpre]
    rfl

/-- At a place where the name may not stand, the search goes on behind the line. -/
theorem headerValueLoop_skip {l rest : List UInt8} (h : StrAt m p (l ++ crlf ++ rest))
    (hcr : 13 ∉ l) (hname : IsName name) (hpre : name <+: l)
    (hat : atHeaderName m p = .ok false) (fuel : ℕ) :
    headerValueLoop m name (fuel + 1) p = headerValueLoop m name fuel (p + l.length) := by
  have hfound := strstr_at h hname
    ((hpre.trans (List.prefix_append _ _)).trans (List.prefix_append _ _))
  rw [headerValueLoop, hfound]
  show (atHeaderName m p >>= _) = _
  rw [hat]
  show (strstr m p crlf >>= _) = _
  rw [strstr_crlf_eq h hcr]
  rfl

/-- At a place where it may stand, it is what stands behind the blanks that counts. -/
theorem headerValueLoop_at {l rest : List UInt8} (h : StrAt m p (l ++ crlf ++ rest))
    (hname : IsName name) (hpre : name <+: l) (hat : atHeaderName m p = .ok true) (fuel : ℕ) :
    ∃ q, p + name.length ≤ q ∧
      StrAt m q ((l.drop name.length).dropWhile (· = 32) ++ crlf ++ rest) ∧
      ∀ c, m[q]? = some c → headerValueLoop m name (fuel + 1) p =
        if c ≠ 58 then headerValueLoop m name fuel (q + 1)
        else (skipByte m (q + 1) 32).map some := by
  have hfound := strstr_at h hname
    ((hpre.trans (List.prefix_append _ _)).trans (List.prefix_append _ _))
  have hbehind : StrAt m (p + name.length) (l.drop name.length ++ crlf ++ rest) := by
    have hadvance := h.advance (k := name.length) (by
      rw [List.append_assoc, List.length_append]
      exact Nat.le_add_right_of_le hpre.length_le)
    rw [List.append_assoc, List.drop_append_of_le_length hpre.length_le,
      ← List.append_assoc] at hadvance
    exact hadvance
  obtain ⟨q, hskip, hle, hstr⟩ := skipByte_line hbehind
  refine ⟨q, hle, hstr, fun c hc => ?_⟩
  rw [headerValueLoop, hfound]
  show (atHeaderName m p >>= _) = _
  rw [hat]
  show (skipByte m (p + name.length) 32 >>= _) = _
  rw [hskip]
  show (readAt m q >>= _) = _
  rw [readAt_eq hc]
  show (if c ≠ 58 then _ else _) = _
  split
  · rfl
  · cases skipByte m (q + 1) 32 <;> rfl

/-- A line feed is passed over. -/
theorem headerValueLoop_lf (h : StrAt m p (10 :: s)) (hname : IsName name) (fuel : ℕ) :
    headerValueLoop m name fuel p = headerValueLoop m name fuel (p + 1) := by
  obtain ⟨c, cs, rfl⟩ := List.exists_cons_of_ne_nil hname.ne_nil
  exact headerValueLoop_step h hname (fun hpre =>
    hname.lf_notMem ((List.cons_prefix_cons.mp hpre).1 ▸ List.mem_cons_self)) fuel

/-- The end of a line is passed over. -/
theorem headerValueLoop_crlf (h : StrAt m p (crlf ++ s)) (hname : IsName name) (fuel : ℕ) :
    headerValueLoop m name fuel p = headerValueLoop m name fuel (p + 2) := by
  obtain ⟨c, cs, rfl⟩ := List.exists_cons_of_ne_nil hname.ne_nil
  have hcr : ¬ c :: cs <+: 13 :: 10 :: s := fun hpre =>
    hname.cr_notMem ((List.cons_prefix_cons.mp hpre).1 ▸ List.mem_cons_self)
  rw [headerValueLoop_step h hname hcr]
  exact headerValueLoop_lf (h.advance (k := 1) (by simp [crlf, ascii])) hname fuel

theorem headerBlock_cons (l : HeaderLine) (lines : List HeaderLine) :
    headerBlock (l :: lines) = l.text ++ crlf ++ headerBlock lines := by
  unfold headerBlock
  rw [List.flatMap_cons, List.append_assoc]

theorem headerPlace_cons (l : HeaderLine) (lines : List HeaderLine) :
    headerPlace name (l :: lines) =
      ((lineValue name l).map (·, lines)).or (headerPlace name lines) := by
  rw [headerPlace]
  cases lineValue name l <;> rfl

theorem headerText_eq_place (lines : List HeaderLine) :
    headerText name lines = (headerPlace name lines).map Prod.fst := by
  unfold headerText
  induction lines with
  | nil => rfl
  | cons l lines ih =>
    rw [headerPlace, List.findSome?_cons]
    cases lineValue name l with
    | some text => rfl
    | none => exact ih

/-- With so many rounds the search is right from every beginning of these lines on. -/
def SearchesLines (m name : List UInt8) (fuel : ℕ) (lines : List HeaderLine) : Prop :=
  ∀ p, 1 ≤ p → StrAt m p (headerBlock lines) → atHeaderName m p = .ok true →
    (headerBlock lines).length < fuel →
    FindsPlace m (headerValueLoop m name fuel p) (headerPlace name lines)

/-- It is right from every place on that has the rest `l` of a line in front of these lines. -/
def SearchesFrom (m name : List UInt8) (fuel : ℕ) (lines : List HeaderLine) (l : List UInt8) :
    Prop :=
  ∀ n ok p, l.length ≤ n → (∀ b ∈ l, b ≠ 13 ∧ b ≠ 10 ∧ b ≠ 0) → 1 ≤ p →
    StrAt m p (l ++ crlf ++ headerBlock lines) → atHeaderName m p = .ok ok →
    (l ++ crlf ++ headerBlock lines).length < fuel →
    FindsPlace m (headerValueLoop m name fuel p)
      (((lineValueFrom name n ok l).map (·, lines)).or (headerPlace name lines))

theorem searchesLines_of_from (hname : IsName name) {fuel : ℕ} {lines : List HeaderLine}
    (hline : ∀ l rest, lines = l :: rest → SearchesFrom m name fuel rest l.text) :
    SearchesLines m name fuel lines := by
  intro p hp h hat hfuel
  cases lines with
  | nil =>
    refine ⟨fun _ => ?_, fun text rest htext => by cases htext⟩
    obtain ⟨fuel, rfl⟩ : ∃ k, fuel = k + 1 := ⟨fuel - 1, by omega⟩
    have hcrlf : StrAt m p (crlf ++ []) := h
    have hend : StrAt m (p + 2) [] := hcrlf.advance (k := 2) (by decide)
    rw [headerValueLoop_crlf hcrlf hname, headerValueLoop,
      strstr_eq hend hname.nul_notMem hname.ne_nil, findSub, if_neg hname.ne_nil]
    rfl
  | cons l rest =>
    rw [headerBlock_cons] at h hfuel
    rw [headerPlace_cons]
    exact hline l rest rfl _ _ p (Nat.le_refl _) l.plain hp h hat hfuel

/-- From the end of a line on. -/
theorem SearchesLines.crlf {fuel : ℕ} {lines : List HeaderLine}
    (hlines : SearchesLines m name fuel lines) (hname : IsName name)
    (h : StrAt m p (crlf ++ headerBlock lines)) (hfuel : (headerBlock lines).length < fuel) :
    FindsPlace m (headerValueLoop m name fuel p) (headerPlace name lines) := by
  rw [headerValueLoop_crlf h hname]
  have hnext : StrAt m (p + 2) (headerBlock lines) :=
    h.advance (k := 2) (by simp [Httpd.crlf, ascii])
  exact hlines (p + 2) (by omega) hnext (atHeaderName_lineStart h) hfuel

/-- The name stands here, but not at the beginning of a line: the rest of the line is passed
over. -/
theorem findsPlace_skipped (hname : IsName name) {fuel : ℕ} {lines : List HeaderLine}
    (hnext : SearchesLines m name fuel lines) {l : List UInt8} (hcr : 13 ∉ l)
    (h : StrAt m p (l ++ crlf ++ headerBlock lines)) (hpre : name <+: l)
    (hat : atHeaderName m p = .ok false)
    (hfuel : (l ++ crlf ++ headerBlock lines).length < fuel + 1) :
    FindsPlace m (headerValueLoop m name (fuel + 1) p) (headerPlace name lines) := by
  rw [headerValueLoop_skip h hcr hname hpre hat]
  have hend : StrAt m (p + l.length) (crlf ++ headerBlock lines) := by
    have hadvance := h.advance (k := l.length) (by
      rw [List.append_assoc, List.length_append]
      exact Nat.le_add_right _ _)
    rwa [List.append_assoc, List.drop_left] at hadvance
  have hpos := (List.length_pos_of_ne_nil hname.ne_nil).trans_le hpre.length_le
  rw [List.append_assoc, List.length_append, List.length_append] at hfuel
  exact hnext.crlf hname hend (by omega)

/-- The name stands at the beginning of a line and nothing behind it: a byte of the line's end is
passed over. -/
theorem findsPlace_bare (hname : IsName name) {fuel q : ℕ} {lines : List HeaderLine}
    (hnext : SearchesLines m name fuel lines) (hstr : StrAt m q (crlf ++ headerBlock lines))
    (hfuel : (headerBlock lines).length < fuel) :
    FindsPlace m (headerValueLoop m name fuel (q + 1)) (headerPlace name lines) := by
  have hfeed : StrAt m (q + 1) (10 :: headerBlock lines) :=
    hstr.advance (k := 1) (by simp [crlf, ascii])
  rw [headerValueLoop_lf hfeed hname]
  exact hnext (q + 2) (by omega) (hfeed.advance (k := 1) (by simp))
    (atHeaderName_lineStart hstr) hfuel

/-- The name stands at the beginning of a line. -/
theorem findsPlace_named (hname : IsName name) {fuel n : ℕ} {lines : List HeaderLine}
    (hnext : SearchesLines m name fuel lines) (hfrom : ∀ l, SearchesFrom m name fuel lines l)
    {b : UInt8} {bs : List UInt8} (hn : (b :: bs).length ≤ n + 1)
    (hplain : ∀ x ∈ b :: bs, x ≠ 13 ∧ x ≠ 10 ∧ x ≠ 0)
    (h : StrAt m p (b :: bs ++ crlf ++ headerBlock lines)) (hpre : name <+: b :: bs)
    (hat : atHeaderName m p = .ok true)
    (hfuel : (b :: bs ++ crlf ++ headerBlock lines).length < fuel + 1) :
    FindsPlace m (headerValueLoop m name (fuel + 1) p)
      (((lineValueFrom name (n + 1) true (b :: bs)).map (·, lines)).or
        (headerPlace name lines)) := by
  obtain ⟨q, hq, hstr, hloop⟩ := headerValueLoop_at h hname hpre hat fuel
  have hpos := List.length_pos_of_ne_nil hname.ne_nil
  have hsuffix := List.dropWhile_suffix (l := (b :: bs).drop name.length) (· = 32)
  have hsub := hsuffix.sublist.trans (List.drop_sublist _ _)
  have hdrop : (((b :: bs).drop name.length).dropWhile (· = 32)).length ≤ bs.length := by
    have hle := hsuffix.length_le
    rw [List.length_drop, List.length_cons] at hle
    omega
  rw [lineValueFrom, if_pos (List.isPrefixOf_iff_prefix.mpr hpre)]
  simp only [if_true]
  cases hrest : ((b :: bs).drop name.length).dropWhile (· = 32) with
  | nil =>
    rw [hrest, List.nil_append] at hstr
    have hbehind : m[q]? = some 13 := hstr.getElem?_eq (k := 0) (by simp [crlf, ascii])
    rw [hloop 13 hbehind, if_pos (by decide)]
    refine findsPlace_bare hname hnext hstr ?_
    simp at hfuel
    omega
  | cons c v =>
    rw [hrest] at hstr hsub hdrop
    have hbehind : m[q]? = some c := hstr.getElem?_eq (k := 0) (by simp)
    have hvalue : StrAt m (q + 1) (v ++ crlf ++ headerBlock lines) :=
      hstr.advance (k := 1) (by simp)
    rw [hloop c hbehind]
    by_cases hcolon : c = 58
    · obtain ⟨v', hskip, -, hstr'⟩ := skipByte_line hvalue
      rw [if_neg (by simpa using hcolon), hskip]
      simp only [if_pos hcolon]
      refine ⟨fun hnone => (by cases hnone), fun text rest htext => ?_⟩
      cases htext
      exact ⟨v', rfl, hstr'⟩
    · -- no colon: the search goes on behind the byte, further on in the line
      rw [if_pos hcolon]
      simp only [if_neg hcolon]
      have hc := hplain c (hsub.subset List.mem_cons_self)
      refine hfrom v n _ (q + 1) ?_ ?_ (by omega) hvalue
        (atHeaderName_behind (by omega) hbehind hc.2.1 hc.2.2) ?_
      · simp at hn hdrop
        omega
      · exact fun x hx => hplain x (hsub.subset (List.mem_cons_of_mem _ hx))
      · simp at hfuel hdrop ⊢
        omega

/-- The rest of a line, byte by byte. A place where the name stands costs a round. -/
theorem searchesFrom_succ (hname : IsName name) {fuel : ℕ} {lines : List HeaderLine}
    (hlines : SearchesLines m name (fuel + 1) lines)
    (hnext : SearchesLines m name fuel lines) (hfrom : ∀ l, SearchesFrom m name fuel lines l)
    (l : List UInt8) : SearchesFrom m name (fuel + 1) lines l := by
  induction l with
  | nil =>
    intro n ok p hn hplain hp h hat hfuel
    rw [lineValueFrom_nil]
    rw [List.nil_append, List.length_append] at hfuel
    exact hlines.crlf hname h (by omega)
  | cons b bs ih =>
    intro n ok p hn hplain hp h hat hfuel
    obtain ⟨n, rfl⟩ : ∃ k, n = k + 1 := ⟨n - 1, by rw [List.length_cons] at hn; omega⟩
    have hcr : 13 ∉ b :: bs := fun hmem => (hplain 13 hmem).1 rfl
    by_cases hpre : name <+: b :: bs
    · cases ok with
      | false =>
        rw [lineValueFrom, if_pos (List.isPrefixOf_iff_prefix.mpr hpre)]
        exact findsPlace_skipped hname hnext hcr h hpre hat hfuel
      | true => exact findsPlace_named hname hnext hfrom hn hplain h hpre hat hfuel
    · have hpre' : ¬ name <+: b :: (bs ++ crlf ++ headerBlock lines) := by
        intro hp'
        have hsplit : b :: (bs ++ crlf ++ headerBlock lines) =
            (b :: bs) ++ 13 :: (10 :: headerBlock lines) := by simp [crlf, ascii]
        rw [hsplit, prefix_append_sep hname.cr_notMem] at hp'
        exact hpre hp'
      have hbyte : m[p]? = some b := h.getElem?_eq (k := 0) (by simp)
      obtain ⟨-, hlf, hnul⟩ := hplain b List.mem_cons_self
      have hrest : StrAt m (p + 1) (bs ++ crlf ++ headerBlock lines) :=
        h.advance (k := 1) (by simp)
      rw [lineValueFrom, if_neg fun hp' => hpre (List.isPrefixOf_iff_prefix.mp hp'),
        headerValueLoop_step h hname hpre']
      refine ih n _ (p + 1) (by simpa using hn) ?_ (by omega) hrest
        (atHeaderName_behind hp hbyte hlf hnul) ?_
      · exact fun x hx => hplain x (List.mem_cons_of_mem _ hx)
      · simp at hfuel ⊢
        omega

theorem searchesFrom (hname : IsName name) (fuel : ℕ) :
    ∀ lines l, SearchesFrom m name fuel lines l := by
  induction fuel with
  | zero =>
    intro lines l n ok p _ _ _ _ _ hfuel
    exact absurd hfuel (Nat.not_lt_zero _)
  | succ fuel ih =>
    intro lines
    induction lines with
    | nil =>
      intro l
      have hnext : ∀ fuel, SearchesLines m name fuel [] :=
        fun fuel => searchesLines_of_from hname fun l rest hnil => by cases hnil
      exact searchesFrom_succ hname (hnext _) (hnext _) (ih []) l
    | cons l' lines ihlines =>
      intro l
      have hlines : SearchesLines m name (fuel + 1) (l' :: lines) := by
        refine searchesLines_of_from hname fun l rest heq => ?_
        cases heq
        exact ihlines _
      have hnext : SearchesLines m name fuel (l' :: lines) :=
        searchesLines_of_from hname fun l rest _ => ih rest l.text
      exact searchesFrom_succ hname hlines hnext (ih _) l

/-- A lookup in the lines of a head finds the text of the first line where it stops. -/
theorem getHeaderValue_place (hname : IsName name) {lines : List HeaderLine}
    (h : StrAt m p (crlf ++ headerBlock lines)) :
    FindsPlace m (getHeaderValue m (p + 2) name) (headerPlace name lines) := by
  have hstart : StrAt m (p + 2) (headerBlock lines) := h.advance (k := 2) (by simp [crlf, ascii])
  have hlen := hstart.length_lt
  exact searchesLines_of_from hname (fun l rest _ => searchesFrom hname _ rest l.text) (p + 2)
    (by omega) hstart (atHeaderName_lineStart h) (by omega)

theorem getHeaderValue_lines (hname : IsName name) {lines : List HeaderLine}
    (h : StrAt m p (crlf ++ headerBlock lines)) :
    Finds m (getHeaderValue m (p + 2) name) (headerText name lines) := by
  rw [headerText_eq_place]
  exact (getHeaderValue_place hname h).finds

end

end WLink.Httpd
