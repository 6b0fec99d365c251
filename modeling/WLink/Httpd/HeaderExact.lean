import WLink.Httpd.HeaderLookup

/-!
# When a header lookup is exact

A lookup should give the value of the first line that has the name, up to blanks and a colon, and
`NULL` if there is none. `HTTPd_Get_Header_Value` also stops where the name stands behind a blank
or a colon further on in a line, so it is exact if and only if it does not stop in a line in front of
the first one with the name (`lookupExact_iff`).

* `fieldValue`, `firstNamed` -- the lines that have a name
* `LookupExact` -- the lookup gives the place of the value
* `Distracts` -- a line that a lookup stops in without need
-/

namespace WLink.Httpd

open WLink.Lib CString

/-- The value of a line that has this name: the name, blanks and a colon, and then the value behind
further blanks. -/
def fieldValue (name : List UInt8) (l : HeaderLine) : Option (List UInt8) :=
  if name.isPrefixOf l.text then
    match (l.text.drop name.length).dropWhile (· = 32) with
    | [] => none
    | c :: v => if c = 58 then some (v.dropWhile (· = 32)) else none
  else none

/-- The value of the first line that has the name, and the lines behind it. -/
def firstNamed (name : List UInt8) : List HeaderLine → Option (List UInt8 × List HeaderLine)
  | [] => none
  | l :: lines =>
    match fieldValue name l with
    | some v => some (v, lines)
    | none => firstNamed name lines

/-- On lines behind a line end at `p` the lookup gives a pointer to the value of the first line with
the name, and `NULL` if no line has it. -/
def LookupExact (m : List UInt8) (p : ℕ) (name : List UInt8) (lines : List HeaderLine) : Prop :=
  FindsPlace m (getHeaderValue m (p + 2) name) (firstNamed name lines)

/-- The line does not have the name, but the name stands in it, read from left to right, behind a
blank or a colon and in front of blanks and a colon, before it stands behind another byte. -/
def Distracts (name : List UInt8) (l : HeaderLine) : Prop :=
  fieldValue name l = none ∧ (lineValue name l).isSome

instance (name : List UInt8) (l : HeaderLine) : Decidable (Distracts name l) :=
  inferInstanceAs (Decidable (_ ∧ _))

/-- The lines in front of the first one that has the name. -/
def linesBefore (name : List UInt8) (lines : List HeaderLine) : List HeaderLine :=
  lines.takeWhile fun l => (fieldValue name l).isNone

/-! ## Lines -/

section

variable {name : List UInt8}

theorem fieldValue_eq_some_iff {l : HeaderLine} {v : List UInt8} :
    fieldValue name l = some v ↔
      ∃ k w, l.text = name ++ (List.replicate k 32 ++ 58 :: w) ∧ v = w.dropWhile (· = 32) := by
  unfold fieldValue
  constructor
  · intro h
    split at h
    · next hpre =>
      obtain ⟨t, ht⟩ := List.isPrefixOf_iff_prefix.mp hpre
      rw [← ht, List.drop_left] at h
      split at h
      · cases h
      · next c w hrest =>
        split at h
        · next hcolon =>
          cases h
          have hblanks : t.takeWhile (· = 32) = List.replicate (t.takeWhile (· = 32)).length 32 :=
            List.eq_replicate_of_mem fun b hb => by simpa using List.mem_takeWhile_imp hb
          refine ⟨(t.takeWhile (· = 32)).length, w, ?_, rfl⟩
          rw [← ht, ← hblanks, ← hcolon, ← hrest, List.takeWhile_append_dropWhile]
        · cases h
    · cases h
  · rintro ⟨k, w, htext, rfl⟩
    have hpre : name.isPrefixOf l.text = true :=
      List.isPrefixOf_iff_prefix.mpr ⟨_, htext.symm⟩
    have hrest : (l.text.drop name.length).dropWhile (· = 32) = 58 :: w := by
      rw [htext, List.drop_left, List.dropWhile_append_of_pos (by simp)]
      rfl
    rw [if_pos hpre, hrest]
    rfl

/-- In a line that has the name the lookup stops at its value. -/
theorem lineValue_of_fieldValue (hne : name ≠ []) {l : HeaderLine} {v : List UInt8}
    (h : fieldValue name l = some v) : lineValue name l = some v := by
  unfold fieldValue at h
  split at h
  · next hpre =>
    obtain ⟨b, bs, htext⟩ : ∃ b bs, l.text = b :: bs := by
      refine List.exists_cons_of_ne_nil fun hnil => hne ?_
      rw [hnil] at hpre
      exact List.prefix_nil.mp (List.isPrefixOf_iff_prefix.mp hpre)
    unfold lineValue
    rw [htext] at hpre h ⊢
    rw [List.length_cons, lineValueFrom, if_pos hpre, if_pos rfl]
    obtain ⟨rest, hrest⟩ : ∃ rest, ((b :: bs).drop name.length).dropWhile (· = 32) = rest :=
      ⟨_, rfl⟩
    simp only [hrest] at h ⊢
    cases rest with
    | nil => cases h
    | cons c w =>
      dsimp only at h ⊢
      by_cases hcolon : c = 58
      · rw [if_pos hcolon] at h ⊢
        exact h
      · rw [if_neg hcolon] at h
        cases h
  · cases h

/-- A line distracts if the name first stands in it behind a blank or a colon and in front of blanks
and a colon. -/
theorem distracts_of_inside {l : HeaderLine} {a v : List UInt8} {c : UInt8} {k : ℕ}
    (hne : name ≠ []) (htext : l.text = a ++ c :: (name ++ (List.replicate k 32 ++ 58 :: v)))
    (hbreak : isNameBreak c = true)
    (hfirst : ∀ j ≤ a.length, ¬ name <+: l.text.drop j) : Distracts name l := by
  have hstops : ∀ (a : List UInt8) n ok, a.length + 2 ≤ n →
      (∀ j ≤ a.length, ¬ name <+: (a ++ c :: (name ++ (List.replicate k 32 ++ 58 :: v))).drop j) →
      (lineValueFrom name n ok (a ++ c :: (name ++ (List.replicate k 32 ++ 58 :: v)))).isSome := by
    intro a
    induction a with
    | nil =>
      intro n ok hn hfirst
      obtain ⟨n, rfl⟩ := Nat.exists_eq_add_of_le hn
      have hnot : ¬ name.isPrefixOf (c :: (name ++ (List.replicate k 32 ++ 58 :: v))) = true :=
        fun hpre => hfirst 0 (Nat.zero_le _) (List.isPrefixOf_iff_prefix.mp hpre)
      obtain ⟨x, xs, rfl⟩ := List.exists_cons_of_ne_nil hne
      have hrest : ((x :: xs ++ (List.replicate k 32 ++ 58 :: v)).drop (x :: xs).length).dropWhile
          (· = 32) = 58 :: v := by
        rw [List.drop_left, List.dropWhile_append_of_pos (by simp)]
        rfl
      rw [List.length_nil, Nat.zero_add, Nat.add_comm, List.nil_append, lineValueFrom, if_neg hnot,
        hbreak, List.cons_append, lineValueFrom, if_pos (by simp), if_pos rfl, ← List.cons_append,
        hrest]
      rfl
    | cons b a ih =>
      intro n ok hn hfirst
      obtain ⟨n, rfl⟩ : ∃ i, n = i + 1 := ⟨n - 1, by omega⟩
      have hnot := hfirst 0 (Nat.zero_le _)
      rw [List.drop_zero] at hnot
      rw [List.cons_append] at hnot ⊢
      rw [lineValueFrom, if_neg fun hpre => hnot (List.isPrefixOf_iff_prefix.mp hpre)]
      rw [List.length_cons] at hn hfirst
      exact ih n _ (by omega) fun j hj => hfirst (j + 1) (by omega)
  have hnot := hfirst 0 (Nat.zero_le _)
  rw [List.drop_zero] at hnot
  refine ⟨if_neg fun hpre => hnot (List.isPrefixOf_iff_prefix.mp hpre), ?_⟩
  have hpos := List.length_pos_of_ne_nil hne
  unfold lineValue
  rw [htext] at hfirst ⊢
  refine hstops a _ true ?_ hfirst
  simp only [List.length_append, List.length_cons]
  omega

/-! ## The place of a value -/

theorem headerBlock_inj {lines lines' : List HeaderLine}
    (h : headerBlock lines = headerBlock lines') : lines = lines' := by
  have hsplit : ∀ (l : HeaderLine) (rest : List HeaderLine),
      headerBlock (l :: rest) = l.text ++ 13 :: (10 :: headerBlock rest) := by
    intro l rest
    rw [headerBlock_cons, List.append_assoc]
    rfl
  have hlong : ∀ rest : List HeaderLine, 2 ≤ (headerBlock rest).length := by
    intro rest
    unfold headerBlock
    rw [List.length_append]
    exact Nat.le_add_left _ _
  have hnil : ∀ (l : HeaderLine) (rest : List HeaderLine),
      headerBlock [] ≠ headerBlock (l :: rest) := by
    intro l rest heq
    have hlen := congrArg List.length heq
    rw [hsplit, List.length_append, List.length_cons, List.length_cons] at hlen
    have hrest := hlong rest
    have hend : (headerBlock []).length = 2 := rfl
    omega
  induction lines generalizing lines' with
  | nil =>
    cases lines' with
    | nil => rfl
    | cons l rest => exact absurd h (hnil l rest)
  | cons l rest ih =>
    cases lines' with
    | nil => exact absurd h.symm (hnil l rest)
    | cons l' rest' =>
      rw [hsplit, hsplit] at h
      obtain ⟨htext, hrest⟩ := append_sep_inj
        (fun hmem => (l.plain 13 hmem).1 rfl) (fun hmem => (l'.plain 13 hmem).1 rfl) h
      obtain ⟨text, plain⟩ := l
      obtain ⟨text', plain'⟩ := l'
      cases htext
      rw [ih (List.tail_eq_of_cons_eq hrest)]

/-- The texts that a lookup may find have no CR. -/
def NoReturn (o : Option (List UInt8 × List HeaderLine)) : Prop :=
  ∀ text lines, o = some (text, lines) → 13 ∉ text

/-- A lookup finds one place only. -/
theorem FindsPlace.unique {m : List UInt8} {r : Except Fault (Option ℕ)}
    {o o' : Option (List UInt8 × List HeaderLine)} (h : FindsPlace m r o)
    (h' : FindsPlace m r o') (hcr : NoReturn o) (hcr' : NoReturn o') : o = o' := by
  rcases o with _ | ⟨text, lines⟩ <;> rcases o' with _ | ⟨text', lines'⟩
  · rfl
  · obtain ⟨v, hv, -⟩ := h'.2 text' lines' rfl
    rw [h.1 rfl] at hv
    cases hv
  · obtain ⟨v, hv, -⟩ := h.2 text lines rfl
    rw [h'.1 rfl] at hv
    cases hv
  · obtain ⟨v, hv, hstr⟩ := h.2 text lines rfl
    obtain ⟨v', hv', hstr'⟩ := h'.2 text' lines' rfl
    rw [hv] at hv'
    cases hv'
    have heq := hstr.unique hstr'
    rw [List.append_assoc, List.append_assoc] at heq
    obtain ⟨htext, hrest⟩ := append_sep_inj (hcr text lines rfl) (hcr' text' lines' rfl) heq
    rw [htext, headerBlock_inj (List.tail_eq_of_cons_eq hrest)]

theorem noReturn_headerPlace (lines : List HeaderLine) : NoReturn (headerPlace name lines) := by
  intro text rest hplace
  have htext : headerText name lines = some text := by
    rw [headerText_eq_place, hplace]
    rfl
  exact cr_notMem_headerText htext

theorem noReturn_firstNamed (hne : name ≠ []) (lines : List HeaderLine) :
    NoReturn (firstNamed name lines) := by
  intro text rest hnamed
  induction lines with
  | nil => cases hnamed
  | cons l lines ih =>
    rw [firstNamed] at hnamed
    cases hvalue : fieldValue name l with
    | none =>
      rw [hvalue] at hnamed
      exact ih hnamed
    | some v =>
      rw [hvalue] at hnamed
      cases hnamed
      have hsuffix := lineValueFrom_suffix (lineValue_of_fieldValue hne hvalue)
      exact fun hmem => (l.plain 13 (hsuffix.subset hmem)).1 rfl

/-- Behind the first line with the name there are fewer lines. -/
theorem length_lt_of_firstNamed {lines after : List HeaderLine} {v : List UInt8}
    (h : firstNamed name lines = some (v, after)) : after.length < lines.length := by
  induction lines with
  | nil => cases h
  | cons l lines ih =>
    rw [firstNamed] at h
    rw [List.length_cons]
    cases hvalue : fieldValue name l with
    | none =>
      rw [hvalue] at h
      exact Nat.lt_succ_of_lt (ih h)
    | some w =>
      rw [hvalue] at h
      cases h
      exact Nat.lt_succ_self _

/-- The lookup stops at the first line with the name if no line in front of it distracts. -/
theorem headerPlace_eq_firstNamed_iff (hne : name ≠ []) (lines : List HeaderLine) :
    headerPlace name lines = firstNamed name lines ↔
      ∀ l ∈ linesBefore name lines, ¬ Distracts name l := by
  unfold linesBefore
  induction lines with
  | nil => exact ⟨fun _ l hl => (by cases hl), fun _ => rfl⟩
  | cons l lines ih =>
    rw [headerPlace, firstNamed, List.takeWhile_cons]
    cases hvalue : fieldValue name l with
    | some v =>
      rw [lineValue_of_fieldValue hne hvalue]
      exact ⟨fun _ l' hl' => (by cases hl'), fun _ => rfl⟩
    | none =>
      cases hline : lineValue name l with
      | none =>
        have hclean : ¬ Distracts name l := by
          rintro ⟨-, hsome⟩
          rw [hline] at hsome
          cases hsome
        simp only [Option.isNone_none, if_true, List.forall_mem_cons]
        rw [and_iff_right hclean]
        exact ih
      | some text =>
        have hdistracts : Distracts name l := ⟨hvalue, by rw [hline]; rfl⟩
        simp only [Option.isNone_none, if_true, List.forall_mem_cons]
        constructor
        · intro heq
          exact absurd (length_lt_of_firstNamed heq.symm) (Nat.lt_irrefl _)
        · exact fun hall => absurd hdistracts hall.1

/-! ## Exactness -/

variable {m : List UInt8} {p : ℕ} {lines : List HeaderLine}

theorem lookupExact_iff_place (hname : IsName name) (h : StrAt m p (crlf ++ headerBlock lines)) :
    LookupExact m p name lines ↔ headerPlace name lines = firstNamed name lines := by
  have hplace := getHeaderValue_place hname h
  constructor
  · intro hexact
    exact hplace.unique hexact (noReturn_headerPlace lines)
      (noReturn_firstNamed hname.ne_nil lines)
  · intro heq
    unfold LookupExact
    rw [← heq]
    exact hplace

/-- A lookup is exact if and only if no line in front of the first one with the name distracts. -/
theorem lookupExact_iff (hname : IsName name) (h : StrAt m p (crlf ++ headerBlock lines)) :
    LookupExact m p name lines ↔ ∀ l ∈ linesBefore name lines, ¬ Distracts name l := by
  rw [lookupExact_iff_place hname h, headerPlace_eq_firstNamed_iff hname.ne_nil]

/-- It is exact where the name occurs in none of these lines. -/
theorem lookupExact_of_not_infix (hname : IsName name)
    (h : StrAt m p (crlf ++ headerBlock lines))
    (hnot : ∀ l ∈ linesBefore name lines, ¬ name <:+: l.text) : LookupExact m p name lines := by
  refine (lookupExact_iff_place hname h).mpr
    ((headerPlace_eq_firstNamed_iff hname.ne_nil lines).mpr fun l hl hdistracts => ?_)
  obtain ⟨-, hsome⟩ := hdistracts
  have hnone : lineValue name l = none := lineValueFrom_of_not_infix _ _ _ (hnot l hl)
  rw [hnone] at hsome
  cases hsome

end

def hostLine : HeaderLine := ⟨ascii "Host: w-link", by decide +kernel⟩

/-- Another header with `Host:` in its value. -/
def refererLine : HeaderLine := ⟨ascii "Referer: Host: evil", by decide +kernel⟩

theorem strAt_headerBlock (lines : List HeaderLine) (hnul : 0 ∉ crlf ++ headerBlock lines) :
    StrAt (crlf ++ headerBlock lines ++ [0]) 0 (crlf ++ headerBlock lines) := ⟨hnul, [], rfl⟩

theorem lookupExact_host :
    LookupExact (crlf ++ headerBlock [hostLine, refererLine] ++ [0]) 0 httpHost
      [hostLine, refererLine] :=
  (lookupExact_iff (by decide) (strAt_headerBlock _ (by decide +kernel))).mpr (by decide +kernel)

/-- The value of the other header is taken for the host. -/
theorem not_lookupExact_referer :
    ¬ LookupExact (crlf ++ headerBlock [refererLine, hostLine] ++ [0]) 0 httpHost
      [refererLine, hostLine] := by
  rw [lookupExact_iff_place (by decide) (strAt_headerBlock _ (by decide +kernel)),
    headerPlace_eq_firstNamed_iff (by decide)]
  intro hclean
  have hinside : Distracts httpHost refererLine :=
    distracts_of_inside (a := ascii "Referer:") (k := 0) (by decide) rfl (by decide +kernel)
      (by decide +kernel)
  refine hclean refererLine ?_ hinside
  unfold linesBefore
  rw [List.takeWhile_cons_of_pos (by decide +kernel)]
  exact List.mem_cons_self

end WLink.Httpd
