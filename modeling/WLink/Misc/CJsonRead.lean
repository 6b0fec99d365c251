import WLink.Lib.Bytes
import WLink.Misc.CJsonHeap
import WLink.Misc.CJsonText
import Mathlib.Data.List.TakeWhile

/-!
# Reading what has been printed

The parser goes through the text of a tree the way the printer has made it, and comes to the same
tree (`returns_parseValue`), if no string and no name in it has quotes or backslashes: the printer
does not escape them. What follows the text only has to end a number (`Ends`). When a list of items
is not followed by its bracket, the parser fails there (`returns_parseChildren`).
-/

namespace WLink.Misc

open WLink.Lib Httpd CString Exec
open CJson (CleanBytes CleanAll contentAll)
open CJsonDoc (Named PlainAll jsonAll nameOf valueText allText moreText itemText)

/-! ## Tokens -/

theorem startsFrom_append (lit rest : List UInt8) : startsFrom lit (lit ++ rest) = .ok true := by
  induction lit with
  | nil => rfl
  | cons c cs ih =>
    show (if c = c then startsFrom cs (cs ++ rest) else _) = _
    rw [if_pos rfl, ih]

theorem valueKind_null (rest : List UInt8) : valueKind (ascii "null" ++ rest) = .ok .null := by
  unfold valueKind
  rw [startsFrom_append]
  rfl

theorem valueKind_false (rest : List UInt8) : valueKind (ascii "false" ++ rest) = .ok .cFalse := by
  have hnull : startsFrom (ascii "null") (ascii "false" ++ rest) = .ok false := rfl
  unfold valueKind
  rw [hnull, startsFrom_append]
  rfl

theorem valueKind_true (rest : List UInt8) : valueKind (ascii "true" ++ rest) = .ok .cTrue := by
  have hnull : startsFrom (ascii "null") (ascii "true" ++ rest) = .ok false := rfl
  have hfalse : startsFrom (ascii "false") (ascii "true" ++ rest) = .ok false := rfl
  unfold valueKind
  rw [hnull, hfalse, startsFrom_append]
  rfl

theorem startsFrom_of_ne {b c : UInt8} (h : b ≠ c) (cs bs : List UInt8) :
    startsFrom (c :: cs) (b :: bs) = .ok false := if_neg h

/-- What does not begin like one of the words is told by its first byte. -/
theorem valueKind_of_head {b : UInt8} (hnull : b ≠ 110) (hfalse : b ≠ 102) (htrue : b ≠ 116)
    (bs : List UInt8) : valueKind (b :: bs) = .ok (byteKind b) := by
  have h₁ : startsFrom (ascii "null") (b :: bs) = .ok false := startsFrom_of_ne hnull _ _
  have h₂ : startsFrom (ascii "false") (b :: bs) = .ok false := startsFrom_of_ne hfalse _ _
  have h₃ : startsFrom (ascii "true") (b :: bs) = .ok false := startsFrom_of_ne htrue _ _
  unfold valueKind
  rw [h₁, h₂, h₃]
  rfl

theorem skip_stays {c : UInt8} (h : c = 0 ∨ 32 < c) (cs : List UInt8) :
    skip (c :: cs) = .ok (c :: cs) := by
  have hstop : ¬ (c ≠ 0 ∧ c ≤ 32) := by
    rintro ⟨hne, hle⟩
    rcases h with h | h
    · exact hne h
    · exact absurd h (UInt8.not_lt.mpr hle)
  exact if_neg hstop

theorem skip_blank {c : UInt8} (h : c ≠ 0) (h' : c ≤ 32) (cs : List UInt8) :
    skip (c :: cs) = skip cs := if_pos ⟨h, h'⟩

theorem skip_tabs (n : ℕ) (rest : List UInt8) : skip (List.replicate n 9 ++ rest) = skip rest := by
  induction n with
  | zero => rfl
  | succ n ih =>
    rw [List.replicate_succ, List.cons_append, skip_blank (by decide) (by decide), ih]

/-- A line break and the tabs behind it. -/
theorem skip_line (depth : ℕ) (rest : List UInt8) :
    skip (10 :: (List.replicate depth 9 ++ rest)) = skip rest := by
  rw [skip_blank (by decide) (by decide), skip_tabs]

/-! ## Numbers -/

/-- The text behind a value does not go on with a number. -/
def Ends (rest : List UInt8) : Prop :=
  ∃ c cs, rest = c :: cs ∧ (c = 0 ∨ c = 10 ∨ c = 44 ∨ c = 93)

theorem decimal_of_ge {n : ℕ} (h : 10 ≤ n) : decimal n = decimal (n / 10) ++ decimal (n % 10) := by
  unfold decimal
  rw [Nat.toDigits_of_base_le (by decide) h,
    Nat.toDigits_of_lt_base (Nat.mod_lt n (by decide) : n % 10 < 10), List.map_append]

/-- A number that is not 0 has no leading zero. -/
theorem decimal_cons {n : ℕ} (h : 0 < n) :
    ∃ d ds, decimal n = d :: ds ∧ 49 ≤ d ∧ d ≤ 57 ∧ ∀ b ∈ ds, isDigit b = true := by
  induction n using Nat.strong_induction_on with
  | _ n ih =>
    rcases Nat.lt_or_ge n 10 with hlt | hge
    · have hall : ∀ n < 10, 0 < n → ∃ d ∈ decimal n, decimal n = [d] ∧ 49 ≤ d ∧ d ≤ 57 := by
        decide +kernel
      obtain ⟨d, -, heq, hlow, hhigh⟩ := hall n hlt h
      exact ⟨d, [], heq, hlow, hhigh, fun b hb => absurd hb List.not_mem_nil⟩
    · obtain ⟨d, ds, heq, hlow, hhigh, hds⟩ := ih (n / 10) (by omega) (by omega)
      refine ⟨d, ds ++ decimal (n % 10), by rw [decimal_of_ge hge, heq]; rfl, hlow, hhigh, ?_⟩
      intro b hb
      rcases List.mem_append.mp hb with hb | hb
      · exact hds b hb
      · obtain ⟨h48, h57⟩ := decimal_digits _ b hb
        unfold isDigit
        rw [decide_eq_true h48, decide_eq_true h57]
        rfl

theorem skipWhile_digits {ds rest : List UInt8} (hds : ∀ b ∈ ds, isDigit b = true)
    (hrest : Ends rest) : skipWhile isDigit (ds ++ rest) = .ok rest := by
  induction ds with
  | nil =>
    obtain ⟨c, cs, rfl, hc⟩ := hrest
    have hstop : ¬ isDigit c = true := by rcases hc with rfl | rfl | rfl | rfl <;> decide
    exact if_neg hstop
  | cons d ds ih =>
    rw [List.cons_append]
    unfold skipWhile
    rw [if_pos (hds d List.mem_cons_self)]
    exact ih fun b hb => hds b (List.mem_cons_of_mem d hb)

/-- Nothing of a number is left in front of the end. -/
theorem skip_ends {rest : List UInt8} (hrest : Ends rest) :
    skipInteger rest = .ok rest ∧ skipFraction rest = .ok rest ∧ skipExponent rest = .ok rest := by
  obtain ⟨c, cs, rfl, hc⟩ := hrest
  refine ⟨?_, ?_, ?_⟩
  · exact if_neg (by rcases hc with rfl | rfl | rfl | rfl <;> decide)
  · exact if_neg (by rcases hc with rfl | rfl | rfl | rfl <;> decide)
  · exact if_neg (by rcases hc with rfl | rfl | rfl | rfl <;> decide)

/-- The parts of a number behind its sign. -/
def skipUnsigned (num : List UInt8) : Except Fault (List UInt8) := do
  let num ← skipIf (· = 48) num
  let num ← skipInteger num
  let num ← skipFraction num
  skipExponent num

theorem skipUnsigned_decimal (n : ℕ) {rest : List UInt8} (hrest : Ends rest) :
    skipUnsigned (decimal n ++ rest) = .ok rest := by
  obtain ⟨hinteger, hfraction, hexponent⟩ := skip_ends hrest
  rcases Nat.eq_zero_or_pos n with rfl | hpos
  · show (skipInteger rest >>= fun num => skipFraction num >>= skipExponent) = _
    rw [hinteger]
    show (skipFraction rest >>= skipExponent) = _
    rw [hfraction]
    exact hexponent
  · obtain ⟨d, ds, heq, hlow, hhigh, hds⟩ := decimal_cons hpos
    have hzero : skipIf (· = 48) (d :: (ds ++ rest)) = .ok (d :: (ds ++ rest)) := by
      have hne : ¬ decide (d = 48) = true := by
        rw [decide_eq_true_iff]
        rintro rfl
        exact absurd hlow (by decide)
      exact if_neg hne
    have hdigits : skipInteger (d :: (ds ++ rest)) = .ok rest := by
      have hskip : skipInteger (d :: (ds ++ rest)) = skipWhile isDigit (ds ++ rest) :=
        if_pos ⟨hlow, hhigh⟩
      rw [hskip, skipWhile_digits hds hrest]
    rw [heq, List.cons_append]
    unfold skipUnsigned
    rw [hzero]
    show (skipInteger _ >>= fun num => skipFraction num >>= skipExponent) = _
    rw [hdigits]
    show (skipFraction rest >>= skipExponent) = _
    rw [hfraction]
    exact hexponent

/-- The parser passes over an integer as a whole. -/
theorem skipNumber_sprintfD (z : ℤ) {rest : List UInt8} (hrest : Ends rest) :
    skipNumber (sprintfD z ++ rest) = .ok rest := by
  unfold sprintfD
  split_ifs with hneg
  · exact skipUnsigned_decimal z.natAbs hrest
  · have hsign : skipIf (· = 45) (decimal z.natAbs ++ rest) = .ok (decimal z.natAbs ++ rest) := by
      rcases hd : decimal z.natAbs with _ | ⟨d, ds⟩
      · have hnonempty : decimal z.natAbs ≠ [] := by
          unfold decimal
          simp
        exact absurd hd hnonempty
      · have hlow := (decimal_digits z.natAbs d (by rw [hd]; exact List.mem_cons_self)).1
        have hne : ¬ decide (d = 45) = true := by
          rw [decide_eq_true_iff]
          rintro rfl
          exact absurd hlow (by decide)
        exact if_neg hne
    show (skipIf (· = 45) (decimal z.natAbs ++ rest) >>= skipUnsigned) = _
    rw [hsign]
    exact skipUnsigned_decimal z.natAbs hrest

/-! ## Strings -/

section

variable {str rest : List UInt8}

/-- A byte of a string without quotes and backslashes neither ends it nor begins an escape. -/
theorem goes_on {c : UInt8} (h : CleanBytes (c :: str)) (h0 : 0 ∉ c :: str) :
    ¬ (c = 34 ∨ c = 0) ∧ c ≠ 92 ∧ CleanBytes str ∧ 0 ∉ str := by
  obtain ⟨⟨hquote, hslash⟩, hclean⟩ := CJson.cleanBytes_cons.mp h
  obtain ⟨hnul, hnuls⟩ : ¬ 0 = c ∧ 0 ∉ str := by rwa [← not_or, ← List.mem_cons]
  exact ⟨not_or.mpr ⟨hquote, Ne.symm hnul⟩, hslash, hclean, hnuls⟩

theorem stringLen_clean (h : CleanBytes str) (h0 : 0 ∉ str) :
    stringLen (str ++ 34 :: rest) = .ok str.length := by
  induction str with
  | nil =>
    rw [List.nil_append]
    unfold stringLen
    exact if_pos (Or.inl rfl)
  | cons c cs ih =>
    obtain ⟨hend, hslash, hclean, hnul⟩ := goes_on h h0
    rw [List.cons_append]
    unfold stringLen
    rw [if_neg hend, if_neg hslash, ih hclean hnul]
    rfl

theorem storeString_clean (h : CleanBytes str) (h0 : 0 ∉ str) :
    storeString 0 (str ++ 34 :: rest) = .ok (str, 34 :: rest) := by
  induction str with
  | nil =>
    rw [List.nil_append]
    unfold storeString
    exact if_pos (Or.inl rfl)
  | cons c cs ih =>
    obtain ⟨hend, hslash, hclean, hnul⟩ := goes_on h h0
    rw [List.cons_append]
    unfold storeString
    rw [if_neg hend, if_neg hslash, ih hclean hnul]
    rfl

theorem stringContent_clean (h : CleanBytes str) (h0 : 0 ∉ str) :
    stringContent str.length (str ++ 34 :: rest) = .ok (str, rest) := by
  have hall : str.takeWhile (· ≠ 0) = str := by
    rw [List.takeWhile_eq_self_iff]
    intro b hb
    rw [decide_eq_true_iff]
    rintro rfl
    exact h0 hb
  unfold stringContent
  rw [storeString_clean h h0]
  show (if str.length < str.length then _ else _) = _
  rw [if_neg (Nat.lt_irrefl _), hall]
  rfl

end

section

variable {σ : Type} {env : CJsonEnv} (hmalloc : ∀ n, env.mallocOk n = true)
include hmalloc

theorem returns_cJsonMalloc :
    Returns (cJsonMalloc env : HeapM σ (Option ℕ)) fun r => ∃ b, r = some b := by
  intro s
  unfold cJsonMalloc
  exact ⟨some s.ledger.next, _, by rw [exec_alloc, if_pos (hmalloc s.mallocs)], _, rfl⟩

/-- A new item of a list or at the root. -/
theorem returns_cJsonNewItem : Returns (cJsonNewItem env : HeapM σ _) fun r =>
    ∃ b, r = some ⟨b, none, .cFalse, 0, none⟩ := by
  refine (returns_cJsonMalloc hmalloc).bind fun r hr => ?_
  obtain ⟨b, rfl⟩ := hr
  exact Returns.pure ⟨b, rfl⟩

theorem returns_parseString {str : List UInt8} (h : CleanBytes str) (h0 : 0 ∉ str)
    (item : CJsonItem) (rest : List UInt8) :
    Returns (parseString env item (34 :: (str ++ 34 :: rest)) : HeapM σ _) fun r =>
      ∃ b, r = ({ item with valuestring := some ⟨b, str⟩, type := .string }, some rest) := by
  refine Returns.bind_lift (stringLen_clean h h0) ?_
  refine (returns_cJsonMalloc hmalloc).bind fun r hr => ?_
  obtain ⟨b, rfl⟩ := hr
  exact Returns.bind_lift (stringContent_clean h h0) (Returns.pure ⟨b, rfl⟩)

end

/-! ## Texts -/

/-- A digit begins a number. -/
theorem valueKind_of_digit {b : UInt8} (h : isDigit b = true) (bs : List UInt8) :
    valueKind (b :: bs) = .ok .number := by
  have hbyte : ∀ b, isDigit b = true → b ≠ 110 ∧ b ≠ 102 ∧ b ≠ 116 ∧ byteKind b = .number :=
    forall_byte (by decide +kernel)
  obtain ⟨hnull, hfalse, htrue, hkind⟩ := hbyte b h
  rw [valueKind_of_head hnull hfalse htrue, hkind]

theorem skip_nameText (depth : ℕ) (name rest : List UInt8) :
    skip (nameText depth name ++ rest) = .ok (34 :: (name ++ 34 :: 58 :: 9 :: rest)) := by
  have htext : nameText depth name ++ rest =
      10 :: (List.replicate depth 9 ++ 34 :: (name ++ 34 :: 58 :: 9 :: rest)) := by
    unfold nameText
    simp only [List.cons_append, List.append_assoc, List.nil_append]
  rw [htext, skip_line, skip_stays (Or.inr (by decide))]

theorem skip_closeText (depth : ℕ) (rest : List UInt8) :
    skip (closeText depth ++ rest) = .ok (125 :: rest) := by
  have htext : closeText depth ++ rest = 10 :: (List.replicate depth 9 ++ 125 :: rest) := by
    unfold closeText
    simp only [List.cons_append, List.append_assoc, List.nil_append]
  rw [htext, skip_line, skip_stays (Or.inr (by decide))]

/-- The text of an item without what is skipped in front of it. -/
def coreText (depth : ℕ) (c : CJsonDoc) : List UInt8 :=
  match c.string with
  | none => valueText depth c
  | some name => 34 :: (name ++ 34 :: 58 :: 9 :: valueText depth c)

theorem sprintfD_cons (z : ℤ) :
    ∃ b bs, sprintfD z = b :: bs ∧ (b = 45 ∨ isDigit b = true) := by
  have hdecimal : ∃ d ds, decimal z.natAbs = d :: ds ∧ isDigit d = true := by
    rcases hd : decimal z.natAbs with _ | ⟨d, ds⟩
    · have hnonempty : decimal z.natAbs ≠ [] := by
        unfold decimal
        simp
      exact absurd hd hnonempty
    · obtain ⟨hlow, hhigh⟩ := decimal_digits z.natAbs d (by rw [hd]; exact List.mem_cons_self)
      refine ⟨d, ds, rfl, ?_⟩
      unfold isDigit
      rw [decide_eq_true hlow, decide_eq_true hhigh]
      rfl
  obtain ⟨d, ds, heq, hdigit⟩ := hdecimal
  unfold sprintfD
  split_ifs
  · exact ⟨45, decimal z.natAbs, rfl, Or.inl rfl⟩
  · exact ⟨d, ds, heq, Or.inr hdigit⟩

/-- The text of a value begins with neither a blank nor a closing bracket. -/
theorem valueText_cons {c : CJsonDoc} (h : c.Plain) (depth : ℕ) :
    ∃ b bs, valueText depth c = b :: bs ∧ 32 < b ∧ b ≠ 93 := by
  obtain ⟨string, type, valueint, valuedouble, valuestring, child⟩ := c
  unfold CJsonDoc.Plain at h
  unfold valueText
  cases type with
  | cFalse => exact ⟨102, ascii "alse", rfl, by decide, by decide⟩
  | cTrue => exact ⟨116, ascii "rue", rfl, by decide, by decide⟩
  | null => exact ⟨110, ascii "ull", rfl, by decide, by decide⟩
  | array => exact ⟨91, _, rfl, by decide, by decide⟩
  | object => exact ⟨123, _, rfl, by decide, by decide⟩
  | string => exact ⟨34, _, rfl, by decide, by decide⟩
  | number =>
    obtain ⟨-, -, rfl⟩ := h
    obtain ⟨b, bs, heq, hb⟩ := sprintfD_cons valueint
    refine ⟨b, bs, heq, ?_⟩
    rcases hb with rfl | hdigit
    · decide
    · unfold isDigit at hdigit
      rw [Bool.and_eq_true, decide_eq_true_iff, decide_eq_true_iff] at hdigit
      refine ⟨UInt8.lt_of_lt_of_le (by decide) hdigit.1, ?_⟩
      rintro rfl
      exact absurd hdigit.2 (by decide)

theorem skip_valueText {c : CJsonDoc} (h : c.Plain) (depth : ℕ) (rest : List UInt8) :
    skip (valueText depth c ++ rest) = .ok (valueText depth c ++ rest) := by
  obtain ⟨b, bs, heq, hb, -⟩ := valueText_cons h depth
  rw [heq, List.cons_append, skip_stays (Or.inr hb)]

/-- In front of an item only blanks are skipped. -/
theorem skip_itemText {c : CJsonDoc} (h : c.Plain) (depth : ℕ) (rest : List UInt8) :
    skip (itemText depth c ++ rest) = .ok (coreText depth c ++ rest) := by
  unfold itemText coreText
  rcases hstring : c.string with _ | name
  · exact skip_valueText h depth rest
  · show skip (nameText depth name ++ valueText depth c ++ rest) = _
    rw [List.append_assoc, skip_nameText]
    simp only [List.cons_append, List.append_assoc]

/-- An item in an array does not begin like its end, and one in an object does not, either. -/
theorem coreText_cons {named : Bool} {c : CJsonDoc} (hname : Named named c.string) (h : c.Plain)
    (depth : ℕ) :
    ∃ b bs, coreText depth c = b :: bs ∧ 32 < b ∧ b ≠ if named then 125 else 93 := by
  unfold coreText
  rcases hstring : c.string with _ | name
  · rw [hstring] at hname
    cases named with
    | true => exact absurd hname not_false
    | false =>
      exact valueText_cons h depth
  · rw [hstring] at hname
    cases named with
    | true => exact ⟨34, _, rfl, by decide, by decide⟩
    | false => exact absurd hname not_false

section

variable {σ : Type} {env : CJsonEnv} (hmalloc : ∀ n, env.mallocOk n = true)
include hmalloc

omit hmalloc in
theorem json_string (c : CJsonDoc) : c.json.string = c.string := by
  cases c
  rfl

/-- What stands in front of the value of an item is read, and the value comes next. -/
theorem returns_parseStart {named : Bool} {c : CJsonDoc} (hname : Named named c.string)
    (hclean : CleanBytes (c.string.getD [])) (h : c.Plain) (depth b : ℕ)
    {value rest : List UInt8} (hvalue : skip value = .ok (coreText depth c ++ rest)) :
    Returns (parseStart env named ⟨b, none, .cFalse, 0, none⟩ value : HeapM σ _) fun r =>
      r.1.string.map HeapString.bytes = c.string ∧
        ∃ value', r.2 = some value' ∧ skip value' = .ok (valueText depth c ++ rest) := by
  rcases hstring : c.string with _ | name
  · rw [hstring] at hname
    have hcore : coreText depth c = valueText depth c := by
      unfold coreText
      rw [hstring]
    cases named with
    | true => exact absurd hname not_false
    | false =>
      rw [hcore] at hvalue
      exact Returns.pure ⟨rfl, value, rfl, hvalue⟩
  · rw [hstring] at hname hclean
    have hcore : coreText depth c ++ rest =
        34 :: (name ++ 34 :: 58 :: 9 :: (valueText depth c ++ rest)) := by
      unfold coreText
      rw [hstring]
      simp only [List.cons_append, List.append_assoc]
    cases named with
    | false => exact absurd hname not_false
    | true =>
      rw [hcore] at hvalue
      have h0 : 0 ∉ name := hname
      refine Returns.bind_lift hvalue ?_
      refine (returns_parseString hmalloc hclean h0 _ _).bind fun r hr => ?_
      obtain ⟨out, rfl⟩ := hr
      refine Returns.bind_lift (skip_stays (Or.inr (by decide)) _) ?_
      refine Returns.pure ⟨rfl, 9 :: (valueText depth c ++ rest), rfl, ?_⟩
      rw [skip_blank (by decide) (by decide), skip_valueText h]

/-! ## Values -/

/-- The text of a list of items, without what is skipped in front of it. -/
def startText (depth : ℕ) : List CJsonDoc → List UInt8
  | [] => []
  | c :: cs => coreText depth c ++ moreText depth cs

omit hmalloc in
theorem skip_allText {named : Bool} {c : CJsonDoc} {cs : List CJsonDoc}
    (h : PlainAll named (c :: cs)) (depth : ℕ) (rest : List UInt8) :
    skip (allText depth (c :: cs) ++ rest) = .ok (startText depth (c :: cs) ++ rest) := by
  show skip (itemText depth c ++ moreText depth cs ++ rest) =
    .ok (coreText depth c ++ moreText depth cs ++ rest)
  rw [List.append_assoc, List.append_assoc, skip_itemText h.2.1]

omit hmalloc in
/-- The first item of a list, where the blanks in front of it have been skipped. -/
theorem skip_startText {named : Bool} {c : CJsonDoc} {cs : List CJsonDoc}
    (h : PlainAll named (c :: cs)) (depth : ℕ) (rest : List UInt8) :
    skip (startText depth (c :: cs) ++ rest) = .ok (startText depth (c :: cs) ++ rest) ∧
      (startText depth (c :: cs) ++ rest).head? ≠ some (if named then 125 else 93) := by
  obtain ⟨b, bs, heq, hb, hne⟩ := coreText_cons h.1 h.2.1 depth
  have hstart : startText depth (c :: cs) ++ rest = b :: (bs ++ moreText depth cs ++ rest) := by
    show coreText depth c ++ moreText depth cs ++ rest = _
    rw [heq]
    rfl
  rw [hstart, skip_stays (Or.inr hb)]
  exact ⟨rfl, fun h => hne (Option.some.inj h)⟩

omit hmalloc in
theorem ends_moreText {rest : List UInt8} (hrest : Ends rest) (depth : ℕ) (cs : List CJsonDoc) :
    Ends (moreText depth cs ++ rest) := by
  cases cs with
  | nil => exact hrest
  | cons c cs => exact ⟨44, _, rfl, by decide⟩

omit hmalloc in
theorem length_valueText_le (depth : ℕ) (c : CJsonDoc) :
    (valueText depth c).length ≤ (coreText depth c).length := by
  unfold coreText
  split
  · exact Nat.le_refl _
  · simp only [List.length_cons, List.length_append]
    omega

omit hmalloc in
theorem length_startText_le (depth : ℕ) (cs : List CJsonDoc) :
    (startText depth cs).length ≤ (allText depth cs).length := by
  cases cs with
  | nil => exact Nat.le_refl _
  | cons c cs =>
    show (coreText depth c ++ _).length ≤ (itemText depth c ++ _).length
    rw [List.length_append, List.length_append]
    refine Nat.add_le_add_right ?_ _
    unfold coreText itemText nameOf
    rcases c.string with _ | name
    · exact Nat.le_refl _
    · show _ ≤ (nameText depth name ++ _).length
      rw [List.length_append, length_nameText]
      simp only [List.length_cons, List.length_append]
      omega

omit hmalloc in
/-- `parse_array` and `parse_object`, when the items are read. -/
theorem returns_parseBody {named : Bool} {child : List CJsonDoc} {depth fuel : ℕ} {close : UInt8}
    {rest rest' : List UInt8} (item : CJsonItem) (hplain : PlainAll named child)
    (hclose : close = if named then 125 else 93) (hskip : skip rest = .ok (close :: rest'))
    (hchildren : child ≠ [] →
      Returns (parseChildren env fuel named (startText depth child ++ rest) : HeapM σ _) fun r =>
        contentAll (CJsonNode.jsonAll r.1) = contentAll (jsonAll child) ∧ r.2 = some rest') :
    Returns (Exec.lift (skip (allText depth child ++ rest)) >>= fun value =>
        if value.head? = some close then pure (.node item [], some value.tail)
        else parseChildren env fuel named value >>= fun r => pure (.node item r.1, r.2) :
          HeapM σ (CJsonNode × Option (List UInt8))) fun r =>
      ∃ nodes, r = (.node item nodes, some rest') ∧
        contentAll (CJsonNode.jsonAll nodes) = contentAll (jsonAll child) := by
  cases child with
  | nil =>
    have hhead : (close :: rest').head? = some close := rfl
    refine Returns.bind_lift hskip ?_
    rw [if_pos hhead]
    exact Returns.pure ⟨[], rfl, rfl⟩
  | cons c cs =>
    refine Returns.bind_lift (skip_allText hplain depth rest) ?_
    rw [hclose, if_neg (skip_startText hplain depth rest).2]
    refine (hchildren (List.cons_ne_nil c cs)).bind fun r hr => ?_
    obtain ⟨nodes, after⟩ := r
    obtain ⟨hcontent, hafter⟩ := hr
    subst hafter
    exact Returns.pure ⟨nodes, rfl, hcontent⟩

omit hmalloc in
/-- An integer is read as it has been printed. -/
theorem parseNumber_sprintfD {z : ℤ} (hint : env.numberInt (sprintfD z) = z) (item : CJsonItem)
    {rest : List UInt8} (hrest : Ends rest) : parseNumber env item (sprintfD z ++ rest) =
      .ok ({ item with valueint := z, type := .number }, rest) := by
  have htake : (sprintfD z ++ rest).take ((sprintfD z ++ rest).length - rest.length) =
      sprintfD z := by
    rw [List.length_append, Nat.add_sub_cancel, List.take_left]
  unfold parseNumber
  rw [skipNumber_sprintfD z hrest]
  show Except.ok ({ item with valueint := env.numberInt _, type := _ }, _) = _
  rw [htake, hint]

mutual

/-- A value is read as it has been printed. The induction is on the tree. -/
theorem returns_parseValue (hint : ∀ z : ℤ, -2 ^ 31 ≤ z → z < 2 ^ 31 →
      env.numberInt (sprintfD z) = z) :
    ∀ (c : CJsonDoc) (depth fuel : ℕ) (item : CJsonItem) (rest : List UInt8), c.Plain →
      c.json.Clean → item.string.map HeapString.bytes = c.string → Ends rest →
      2 * (valueText depth c ++ rest).length < fuel →
      Returns (parseValue env fuel item (valueText depth c ++ rest) : HeapM σ _) fun r =>
        r.1.json.content = c.json.content ∧ r.2 = some rest
  | .item name type valueint valuedouble valuestring child, depth, 0, _, _ => by
    intro _ _ _ _ hfuel
    exact absurd hfuel (Nat.not_lt_zero _)
  | .item name type valueint valuedouble valuestring child, depth, fuel + 1, item, rest => by
    intro hplain hclean hname hrest hfuel
    have hstring : item.string.map HeapString.bytes = name := hname
    -- the items of an array or of an object, up to and with the bracket behind them
    have hitems : ∀ (named : Bool) (tail : List UInt8), PlainAll named child →
        CleanAll (jsonAll child) → Ends tail →
        skip tail = .ok ((if named then 125 else 93) :: rest) →
        2 * (allText (depth + 1) child ++ tail).length + 1 < fuel → child ≠ [] →
        Returns (parseChildren env fuel named (startText (depth + 1) child ++ tail) : HeapM σ _)
          fun r => contentAll (CJsonNode.jsonAll r.1) = contentAll (jsonAll child) ∧
            r.2 = some rest := by
      intro named tail hplain hclean hends hskip hfuel hne
      have hlength := length_startText_le (depth + 1) child
      rw [List.length_append] at hfuel
      have hbracket : ((if named then 125 else 93) :: rest).head? ≠ some 44 := by
        cases named <;> simp
      obtain ⟨c, cs, rfl⟩ := List.exists_cons_of_ne_nil hne
      refine (returns_parseChildren hint (c :: cs) (depth + 1) fuel named _ tail _ hne hplain hclean
        (skip_startText hplain (depth + 1) tail).1 hends hskip hbracket
        (by rw [List.length_append]; omega)).imp fun r hr => ⟨hr.1, ?_⟩
      rw [hr.2]
      exact if_pos rfl
    subst hstring
    cases type with
    | null => exact Returns.bind_lift (valueKind_null rest) (Returns.pure ⟨rfl, rfl⟩)
    | cFalse => exact Returns.bind_lift (valueKind_false rest) (Returns.pure ⟨rfl, rfl⟩)
    | cTrue => exact Returns.bind_lift (valueKind_true rest) (Returns.pure ⟨rfl, rfl⟩)
    | number =>
      obtain ⟨hlow, hhigh, rfl⟩ := hplain
      obtain ⟨b, bs, heq, hb⟩ := sprintfD_cons valueint
      have hnumber : valueKind (sprintfD valueint ++ rest) = .ok .number := by
        rw [heq, List.cons_append]
        rcases hb with rfl | hdigit
        · exact valueKind_of_head (by decide) (by decide) (by decide) _
        · exact valueKind_of_digit hdigit _
      refine Returns.bind_lift hnumber ?_
      exact Returns.bind_lift (parseNumber_sprintfD (hint valueint hlow hhigh) item hrest)
        (Returns.pure ⟨rfl, rfl⟩)
    | string =>
      have htext : ∀ name, valueText depth (.item name .string valueint valuedouble valuestring
          child) ++ rest = 34 :: (valuestring ++ 34 :: rest) := by
        intro name
        unfold valueText
        simp only [List.cons_append, List.append_assoc, List.nil_append]
      rw [htext]
      refine Returns.bind_lift (valueKind_of_head (by decide) (by decide) (by decide) _) ?_
      refine (returns_parseString hmalloc hclean hplain item rest).bind fun r hr => ?_
      obtain ⟨out, rfl⟩ := hr
      exact Returns.pure ⟨rfl, rfl⟩
    | array =>
      have htext : ∀ name, valueText depth (.item name .array valueint valuedouble valuestring
          child) ++ rest = 91 :: (allText (depth + 1) child ++ 93 :: rest) := by
        intro name
        unfold valueText
        simp only [List.cons_append, List.append_assoc, List.nil_append]
      rw [htext] at hfuel ⊢
      rw [List.length_cons] at hfuel
      have hskip : skip (93 :: rest) = .ok (93 :: rest) := skip_stays (Or.inr (by decide)) rest
      have hchildren := hitems false (93 :: rest) hplain hclean ⟨93, rest, rfl, by decide⟩ hskip
        (by omega)
      refine Returns.bind_lift (valueKind_of_head (by decide) (by decide) (by decide) _) ?_
      refine (returns_parseBody _ hplain rfl hskip hchildren).imp fun r hr => ?_
      obtain ⟨nodes, rfl, hcontent⟩ := hr
      exact ⟨congrArg (CJson.item _ _ 0 []) hcontent, rfl⟩
    | object =>
      have htext : ∀ name, valueText depth (.item name .object valueint valuedouble valuestring
          child) ++ rest = 123 :: (allText (depth + 1) child ++ (closeText depth ++ rest)) := by
        intro name
        unfold valueText
        simp only [List.cons_append, List.append_assoc]
      rw [htext] at hfuel ⊢
      rw [List.length_cons] at hfuel
      have hskip := skip_closeText depth rest
      have hchildren := hitems true (closeText depth ++ rest) hplain hclean
        ⟨10, _, rfl, by decide⟩ hskip (by omega)
      refine Returns.bind_lift (valueKind_of_head (by decide) (by decide) (by decide) _) ?_
      refine (returns_parseBody _ hplain rfl hskip hchildren).imp fun r hr => ?_
      obtain ⟨nodes, rfl, hcontent⟩ := hr
      exact ⟨congrArg (CJson.item _ _ 0 []) hcontent, rfl⟩

/-- The items of a list are read as they have been printed, up to the bracket behind them if there
is one. -/
theorem returns_parseChildren (hint : ∀ z : ℤ, -2 ^ 31 ≤ z → z < 2 ^ 31 →
      env.numberInt (sprintfD z) = z) :
    ∀ (cs : List CJsonDoc) (depth fuel : ℕ) (named : Bool) (value rest rest' : List UInt8),
      cs ≠ [] → PlainAll named cs → CleanAll (jsonAll cs) →
      skip value = .ok (startText depth cs ++ rest) → Ends rest → skip rest = .ok rest' →
      rest'.head? ≠ some 44 → 2 * (startText depth cs ++ rest).length + 1 < fuel →
      Returns (parseChildren env fuel named value : HeapM σ _) fun r =>
        contentAll (CJsonNode.jsonAll r.1) = contentAll (jsonAll cs) ∧
          r.2 = if rest'.head? = some (if named then 125 else 93) then some rest'.tail else none
  | [], _, _, _, _, _, _ => fun h => absurd rfl h
  | c :: cs, depth, 0, _, _, _, _ => by
    intro _ _ _ _ _ _ _ hfuel
    exact absurd hfuel (Nat.not_lt_zero _)
  | c :: cs, depth, fuel + 1, named, value, rest, rest' => by
    intro _ hplain hclean hvalue hrest hskip hcomma hfuel
    obtain ⟨hname, hplainc, hplains⟩ := hplain
    obtain ⟨hcleanName, hcleanc, hcleans⟩ := hclean
    have hcore := length_valueText_le depth c
    have hlength : (startText depth (c :: cs) ++ rest).length =
        (coreText depth c).length + (moreText depth cs).length + rest.length := by
      show (coreText depth c ++ moreText depth cs ++ rest).length = _
      rw [List.length_append, List.length_append]
    have hvalue' : skip value = .ok (coreText depth c ++ (moreText depth cs ++ rest)) := by
      rw [hvalue]
      show Except.ok (coreText depth c ++ moreText depth cs ++ rest) = _
      rw [List.append_assoc]
    refine (returns_cJsonNewItem hmalloc).bind fun r hr => ?_
    obtain ⟨b, rfl⟩ := hr
    rw [json_string] at hcleanName
    refine (returns_parseStart hmalloc hname hcleanName hplainc depth b hvalue').bind fun r hr => ?_
    obtain ⟨item, start⟩ := r
    obtain ⟨hitem, value', hstart, hskip'⟩ := hr
    subst hstart
    refine Returns.bind_lift hskip' ?_
    have hends := ends_moreText hrest depth cs
    refine (returns_parseValue hint c depth fuel item _ hplainc hcleanc hitem hends
      (by rw [List.length_append, List.length_append]; omega)).bind fun r hr => ?_
    obtain ⟨node, after⟩ := r
    obtain ⟨hcontent, hafter⟩ := hr
    subst hafter
    cases cs with
    | nil =>
      refine Returns.bind_lift hskip ?_
      have hone : contentAll (CJsonNode.jsonAll [node]) = contentAll (jsonAll [c]) := by
        show [node.json.content] = [c.json.content]
        rw [hcontent]
      rw [if_neg hcomma]
      by_cases hclose : rest'.head? = some (if named then 125 else 93)
      · rw [if_pos hclose, if_pos hclose]
        exact Returns.pure ⟨hone, rfl⟩
      · rw [if_neg hclose, if_neg hclose]
        exact Returns.pure ⟨hone, rfl⟩
    | cons d ds =>
      have htext : moreText depth (d :: ds) ++ rest = 44 :: (allText depth (d :: ds) ++ rest) := rfl
      have hcomma' : (44 :: (allText depth (d :: ds) ++ rest)).head? = some 44 := rfl
      rw [htext]
      refine Returns.bind_lift (skip_stays (Or.inr (by decide)) _) ?_
      rw [if_pos hcomma']
      have hall := length_startText_le depth (d :: ds)
      have hmore : (moreText depth (d :: ds)).length = (allText depth (d :: ds)).length + 1 := rfl
      refine (returns_parseChildren hint (d :: ds) depth fuel named _ rest rest'
        (List.cons_ne_nil d ds) hplains hcleans (skip_allText hplains depth rest) hrest hskip hcomma
        (by rw [List.length_append]; omega)).bind fun r hr => ?_
      obtain ⟨nodes, after⟩ := r
      obtain ⟨hcontents, hafter⟩ := hr
      refine Returns.pure ⟨?_, hafter⟩
      show node.json.content :: contentAll (CJsonNode.jsonAll nodes) =
        c.json.content :: contentAll (jsonAll (d :: ds))
      rw [hcontent, hcontents]

end

end

end WLink.Misc
