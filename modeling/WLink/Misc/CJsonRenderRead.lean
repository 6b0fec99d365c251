import WLink.Misc.CJsonRenderTheorems

/-!
# What is printed is read back

The text of a tree is its tokens with blanks between them (`spaced_nodeText`), without any if it is
not formatted, and the tokens are those of its value (`valueTokens_node`). So the parser makes the
same tree of the text (`print_parse`).
-/

namespace WLink.Misc

open WLink.Lib Httpd CString Exec

/-! ## Tokens -/

section

variable (dtoa : CJsonItem → Option (List UInt8))

/-- The text of a number. -/
def itemNumberText (item : CJsonItem) : List UInt8 := (dtoa item).getD (sprintfD item.valueint)

mutual

/-- The tokens that are printed. -/
def nodeTokens : CJsonNode → List (List UInt8)
  | .node item child =>
    match item.type with
    | .null => [ascii "null"]
    | .cFalse => [ascii "false"]
    | .cTrue => [ascii "true"]
    | .number => [itemNumberText dtoa item]
    | .string => [stringPtrText item.valuestring]
    | .array => [91] :: (itemsTokens false child ++ [[93]])
    | .object => [123] :: (itemsTokens true child ++ [[125]])

def itemsTokens (named : Bool) : List CJsonNode → List (List UInt8)
  | [] => []
  | c :: cs =>
    (if named then [stringPtrText c.item.string, [58]] else []) ++ (nodeTokens c ++
      if cs.isEmpty then [] else [44] :: itemsTokens named cs)

end

/-- The blanks of a formatted text. -/
def FmtGap (fmt : Bool) (gap : List UInt8) : Prop :=
  ∀ b ∈ gap, fmt = true ∧ (b = 9 ∨ b = 10 ∨ b = 32)

variable {dtoa} {fmt : Bool} {gap gap' rest : List UInt8}

theorem fmtGap_nil (fmt : Bool) : FmtGap fmt [] := nofun

theorem FmtGap.append (h : FmtGap fmt gap) (h' : FmtGap fmt gap') : FmtGap fmt (gap ++ gap') := by
  intro b hb
  rcases List.mem_append.mp hb with hb | hb
  · exact h b hb
  · exact h' b hb

theorem FmtGap.blank (h : FmtGap fmt gap) : Blank gap := by
  intro b hb
  rcases (h b hb).2 with rfl | rfl | rfl <;> decide

theorem FmtGap.eq_nil (h : FmtGap false gap) : gap = [] :=
  List.eq_nil_iff_forall_not_mem.mpr fun b hb => Bool.noConfusion (h b hb).1

theorem fmtGap_singleton {b : UInt8} (fmt : Bool) (hb : b = 9 ∨ b = 10 ∨ b = 32) :
    FmtGap fmt (if fmt then [b] else []) := by
  cases fmt with
  | false => exact nofun
  | true =>
    intro c hc
    rw [List.mem_singleton.mp hc]
    exact ⟨rfl, hb⟩

theorem fmtGap_tabs (fmt : Bool) (depth : ℕ) : FmtGap fmt (tabs fmt depth) := by
  cases fmt with
  | false => exact nofun
  | true =>
    intro c hc
    exact ⟨rfl, .inl (List.eq_of_mem_replicate hc)⟩

theorem fmtGap_lineBreak (fmt : Bool) : FmtGap fmt (lineBreak fmt) :=
  fmtGap_singleton fmt (.inr (.inl rfl))

/-- One token, and what comes behind it. -/
theorem spaced_one {tok text : List UInt8} {toks : List (List UInt8)}
    (h : Spaced (FmtGap fmt) toks rest text) :
    Spaced (FmtGap fmt) (tok :: toks) rest (tok ++ text) :=
  .cons (fmtGap_nil fmt) h

/-- Blanks in front of the first token. -/
theorem spaced_blanks {tok text : List UInt8} {toks : List (List UInt8)} (hgap : FmtGap fmt gap)
    (h : Spaced (FmtGap fmt) (tok :: toks) rest text) :
    Spaced (FmtGap fmt) (tok :: toks) rest (gap ++ text) :=
  h.before FmtGap.append hgap

theorem nodeTokens_cons (dtoa : CJsonItem → Option (List UInt8)) (c : CJsonNode) :
    ∃ tok toks, nodeTokens dtoa c = tok :: toks := by
  obtain ⟨item, child⟩ := c
  unfold nodeTokens
  cases item.type <;> exact ⟨_, _, rfl⟩

theorem itemsTokens_false_cons (dtoa : CJsonItem → Option (List UInt8)) (c : CJsonNode)
    (cs : List CJsonNode) : ∃ tok toks, itemsTokens dtoa false (c :: cs) = tok :: toks := by
  obtain ⟨tok, toks, heq⟩ := nodeTokens_cons dtoa c
  unfold itemsTokens
  rw [heq]
  exact ⟨tok, _, rfl⟩

mutual

/-- The text of a tree is its tokens with blanks between them. -/
theorem spaced_nodeText (fmt : Bool) : ∀ (c : CJsonNode) (depth : ℕ) (rest : List UInt8),
    Spaced (FmtGap fmt) (nodeTokens dtoa c) rest (nodeText dtoa fmt depth c ++ rest)
  | .node item child, depth, rest => by
    obtain ⟨block, string, type, valueint, valuestring⟩ := item
    have hone : ∀ tok, Spaced (FmtGap fmt) [tok] rest (tok ++ rest) :=
      fun tok => spaced_one (.nil rest)
    cases type with
    | null => exact hone _
    | cFalse => exact hone _
    | cTrue => exact hone _
    | number => exact hone _
    | string => exact hone _
    | array =>
      have htext : nodeText dtoa fmt depth (.node ⟨block, string, .array, valueint, valuestring⟩
          child) ++ rest =
          [91] ++ (joinEntries fmt (entryTexts dtoa fmt (depth + 1) child) ++ 93 :: rest) := by
        unfold nodeText arrayText
        simp only [List.cons_append, List.append_assoc, List.nil_append]
      rw [htext]
      refine spaced_one ?_
      exact (spaced_joinEntries fmt child (depth + 1) _).append (hone [93])
    | object =>
      have hclose : ∀ gap, FmtGap fmt gap →
          Spaced (FmtGap fmt) [[125]] rest (gap ++ (tabs fmt depth ++ 125 :: rest)) :=
        fun gap hgap => spaced_blanks hgap (spaced_blanks (fmtGap_tabs fmt depth) (hone [125]))
      cases child with
      | nil =>
        have htext : nodeText dtoa fmt depth (.node ⟨block, string, .object, valueint, valuestring⟩
            []) ++ rest = [123] ++ (lineBreak fmt ++ (tabs fmt (depth - 1) ++ 125 :: rest)) := by
          show emptyObjectText fmt depth ++ rest = _
          unfold emptyObjectText
          simp only [List.cons_append, List.append_assoc, List.nil_append]
        rw [htext]
        exact spaced_one (spaced_blanks (fmtGap_lineBreak fmt)
          (spaced_blanks (fmtGap_tabs fmt (depth - 1)) (hone [125])))
      | cons c cs =>
        have htext : nodeText dtoa fmt depth (.node ⟨block, string, .object, valueint, valuestring⟩
            (c :: cs)) ++ rest = [123] ++ (lineBreak fmt ++
              (joinMembers fmt (depth + 1) (memberTexts dtoa fmt (depth + 1) (c :: cs)) ++
                (tabs fmt depth ++ 125 :: rest))) := by
          show objectText fmt (depth + 1) _ ++ rest = _
          unfold objectText
          simp only [List.cons_append, List.append_assoc, List.nil_append, Nat.add_sub_cancel]
        rw [htext]
        exact spaced_one (spaced_joinMembers fmt (c :: cs) (depth + 1) _ _ _
          (fmtGap_lineBreak fmt) hclose)

/-- The entries of an array, with commas between them. -/
theorem spaced_joinEntries (fmt : Bool) : ∀ (cs : List CJsonNode) (depth : ℕ) (rest : List UInt8),
    Spaced (FmtGap fmt) (itemsTokens dtoa false cs) rest
      (joinEntries fmt (entryTexts dtoa fmt depth cs) ++ rest)
  | [], _, rest => .nil rest
  | [c], depth, rest => by
    have htoks : itemsTokens dtoa false [c] = nodeTokens dtoa c := List.append_nil _
    rw [htoks]
    exact spaced_nodeText fmt c depth rest
  | c :: d :: ds, depth, rest => by
    have htoks : itemsTokens dtoa false (c :: d :: ds) =
        nodeTokens dtoa c ++ [44] :: itemsTokens dtoa false (d :: ds) := rfl
    have htext : joinEntries fmt (entryTexts dtoa fmt depth (c :: d :: ds)) ++ rest =
        nodeText dtoa fmt depth c ++ ([44] ++ ((if fmt then [32] else []) ++
          (joinEntries fmt (entryTexts dtoa fmt depth (d :: ds)) ++ rest))) := by
      show nodeText dtoa fmt depth c ++ 44 :: (_ ++ joinEntries fmt (entryTexts dtoa fmt depth
        (d :: ds))) ++ rest = _
      simp only [List.cons_append, List.append_assoc, List.nil_append]
    rw [htoks, htext]
    refine (spaced_nodeText fmt c depth _).append (spaced_one ?_)
    have hrest := spaced_joinEntries fmt (d :: ds) depth rest
    obtain ⟨tok, toks, heq⟩ := itemsTokens_false_cons dtoa d ds
    rw [heq] at hrest ⊢
    exact spaced_blanks (fmtGap_singleton fmt (.inr (.inr rfl))) hrest

/-- The members of an object, each on a line of its own, and the bracket behind them. -/
theorem spaced_joinMembers (fmt : Bool) : ∀ (cs : List CJsonNode) (depth : ℕ)
    (gap rest close : List UInt8), FmtGap fmt gap →
      (∀ gap, FmtGap fmt gap → Spaced (FmtGap fmt) [[125]] rest (gap ++ close)) →
      Spaced (FmtGap fmt) (itemsTokens dtoa true cs ++ [[125]]) rest
        (gap ++ (joinMembers fmt depth (memberTexts dtoa fmt depth cs) ++ close))
  | [], _, gap, _, _ => fun hgap hclose => hclose gap hgap
  | c :: cs, depth, gap, rest, close => by
    intro hgap hclose
    have htoks : itemsTokens dtoa true (c :: cs) ++ [[125]] =
        stringPtrText c.item.string :: [58] :: (nodeTokens dtoa c ++
          ((if cs.isEmpty then [] else [44] :: itemsTokens dtoa true cs) ++ [[125]])) := by
      show [_, _] ++ (nodeTokens dtoa c ++ _) ++ _ = _
      simp only [List.cons_append, List.nil_append, List.append_assoc]
    have hempty : (memberTexts dtoa fmt depth cs).isEmpty = cs.isEmpty := by cases cs <;> rfl
    have htext : joinMembers fmt depth (memberTexts dtoa fmt depth (c :: cs)) ++ close =
        tabs fmt depth ++ (stringPtrText c.item.string ++ ([58] ++ ((if fmt then [9] else []) ++
          (nodeText dtoa fmt depth c ++ ((if cs.isEmpty then [] else [44]) ++
            (lineBreak fmt ++ (joinMembers fmt depth (memberTexts dtoa fmt depth cs) ++
              close))))))) := by
      rw [← hempty]
      show tabs fmt depth ++ (stringPtrText c.item.string ++ 58 :: (_ ++ (nodeText dtoa fmt depth c ++
        (_ ++ (lineBreak fmt ++ joinMembers fmt depth _))))) ++ close = _
      simp only [List.cons_append, List.append_assoc, List.nil_append]
    rw [htoks, htext, ← List.append_assoc gap]
    refine .cons (hgap.append (fmtGap_tabs fmt depth)) (spaced_one ?_)
    have hbehind : Spaced (FmtGap fmt)
        ((if cs.isEmpty then [] else [44] :: itemsTokens dtoa true cs) ++ [[125]]) rest
        ((if cs.isEmpty then [] else [44]) ++ (lineBreak fmt ++
          (joinMembers fmt depth (memberTexts dtoa fmt depth cs) ++ close))) := by
      by_cases hcs : cs.isEmpty = true
      · have hnil := List.isEmpty_iff.mp hcs
        subst hnil
        exact hclose _ (fmtGap_lineBreak fmt)
      · rw [if_neg hcs, if_neg hcs]
        exact spaced_one (spaced_joinMembers fmt cs depth _ rest close (fmtGap_lineBreak fmt) hclose)
    have hvalue : Spaced (FmtGap fmt) (nodeTokens dtoa c ++ _) rest
        (nodeText dtoa fmt depth c ++ _) := (spaced_nodeText fmt c depth _).append hbehind
    obtain ⟨tok, toks, heq⟩ := nodeTokens_cons dtoa c
    rw [heq] at hvalue ⊢
    exact spaced_blanks (fmtGap_singleton fmt (.inl rfl)) hvalue

end

end

/-! ## The tokens of the value -/

/-- What `print_string_ptr` stores for a byte is one of the forms that a string may have it in. -/
theorem escapeByte_cases : ∀ b : UInt8, b = 0 ∨ (escapeByte b = [b] ∧ b ≠ 34 ∧ b ≠ 92) ∨
    (∃ p ∈ shortEscapes, p.2 = b ∧ escapeByte b = [92, p.1]) ∨
    (b < 128 ∧ escapeByte b = 92 :: 117 :: (escapeByte b).drop 2 ∧
      ((escapeByte b).drop 2).map hexDigit =
        [some 0, some 0, some (b.toNat / 16), some (b.toNat % 16)]) :=
  forall_byte (by decide +kernel)

theorem utf8_ascii : ∀ b : UInt8, b < 128 → String.utf8EncodeChar (Char.ofNat b.toNat) = [b] ∧
    (Char.ofNat b.toNat).toNat = b.toNat := forall_byte (by decide +kernel)

/-- A string is printed as one of its texts. -/
theorem stringText_escapeBytes {bs : List UInt8} (h : 0 ∉ bs) : StringText bs (escapeBytes bs) := by
  induction bs with
  | nil => exact .nil
  | cons b bs ih =>
    obtain ⟨hb, hbs⟩ : ¬ 0 = b ∧ 0 ∉ bs := by rwa [← not_or, ← List.mem_cons]
    have hrest := ih hbs
    have hcons : escapeBytes (b :: bs) = escapeByte b ++ escapeBytes bs := List.flatMap_cons
    rw [hcons]
    rcases escapeByte_cases b with hzero | ⟨heq, hquote, hslash⟩ | ⟨p, hp, hpb, heq⟩ |
      ⟨hascii, heq, hdigits⟩
    · exact absurd hzero.symm hb
    · rw [heq]
      exact .byte (Ne.symm hb) hquote hslash hrest
    · rw [heq]
      refine .short ?_ hrest
      rw [← hpb]
      exact hp
    · obtain ⟨hutf8, hnat⟩ := utf8_ascii b hascii
      have hhex : HexText ((escapeByte b).drop 2) (Char.ofNat b.toNat).toNat := by
        refine ⟨0, 0, b.toNat / 16, b.toNat % 16, hdigits, ?_⟩
        rw [hnat]
        omega
      have hnul : (Char.ofNat b.toNat).toNat ≠ 0 := by
        rw [hnat]
        intro hzero
        exact hb (UInt8.toNat_inj.mp hzero.symm)
      have htext := StringText.unicode hhex hnul hrest
      rw [hutf8] at htext
      rw [heq]
      exact htext

theorem numberText_sprintfD (z : ℤ) : NumberText (sprintfD z) := by
  have hinteger : ∀ n, decimal n = [48] ∨ ∃ d ds, decimal n = d :: ds ∧ 49 ≤ d ∧ d ≤ 57 ∧
      ∀ b ∈ ds, isDigit b = true := by
    intro n
    rcases Nat.eq_zero_or_pos n with rfl | hpos
    · exact .inl rfl
    · exact .inr (decimal_cons hpos)
  unfold sprintfD
  split_ifs
  · exact ⟨[45], decimal z.natAbs, [], [], by rw [List.append_nil, List.append_nil]; rfl, .inr rfl,
      hinteger _, .inl rfl, .inl rfl⟩
  · exact ⟨[], decimal z.natAbs, [], [], by rw [List.append_nil, List.append_nil]; rfl, .inl rfl,
      hinteger _, .inl rfl, .inl rfl⟩

section

variable (dtoa : CJsonItem → Option (List UInt8))

mutual

/-- The numbers are integers of 32 bits, no string is `NULL` or has a NUL in it, and the children of
an object have names, those of an array do not. -/
def CJsonNode.Printable : CJsonNode → Prop
  | .node item child =>
    match item.type with
    | .number => dtoa item = none ∧ -2 ^ 31 ≤ item.valueint ∧ item.valueint < 2 ^ 31
    | .string => ∃ str, item.valuestring = some str ∧ 0 ∉ str.bytes
    | .array => PrintableAll false child
    | .object => PrintableAll true child
    | _ => True

def CJsonNode.PrintableAll (named : Bool) : List CJsonNode → Prop
  | [] => True
  | c :: cs => CJsonDoc.Named named (c.item.string.map HeapString.bytes) ∧ c.Printable ∧
      PrintableAll named cs

end

variable {dtoa} {numberInt : List UInt8 → ℤ}

theorem string_json (c : CJsonNode) : c.json.string = c.item.string.map HeapString.bytes := by
  cases c
  rfl

theorem nameTokens_node {named : Bool} {string : Option HeapString}
    (h : CJsonDoc.Named named (string.map HeapString.bytes)) :
    NameTokens named (string.map HeapString.bytes)
      (if named then [stringPtrText string, [58]] else []) := by
  cases named with
  | false =>
    cases string with
    | none => exact rfl
    | some str => exact absurd h not_false
  | true =>
    cases string with
    | none => exact absurd h not_false
    | some str => exact ⟨_, stringText_escapeBytes h, rfl⟩

mutual

/-- The tokens that are printed are those of the value. -/
theorem valueTokens_node (hint : ∀ z : ℤ, -2 ^ 31 ≤ z → z < 2 ^ 31 → numberInt (sprintfD z) = z) :
    ∀ c : CJsonNode, c.Printable dtoa → ValueTokens numberInt c.json (nodeTokens dtoa c)
  | .node item child => by
    intro h
    obtain ⟨block, string, type, valueint, valuestring⟩ := item
    cases type with
    | null => exact rfl
    | cFalse => exact rfl
    | cTrue => exact rfl
    | number =>
      obtain ⟨hdtoa, hlow, hhigh⟩ := h
      have htext : itemNumberText dtoa ⟨block, string, .number, valueint, valuestring⟩ =
          sprintfD valueint := by
        unfold itemNumberText
        rw [hdtoa]
        rfl
      refine ⟨sprintfD valueint, numberText_sprintfD valueint, hint valueint hlow hhigh, ?_⟩
      rw [← htext]
      rfl
    | string =>
      obtain ⟨str, hstr, hzero⟩ := h
      have hstr' : valuestring = some str := hstr
      subst hstr'
      exact ⟨_, stringText_escapeBytes hzero, rfl⟩
    | array => exact ⟨_, itemsTokens_nodes hint false child h, rfl⟩
    | object => exact ⟨_, itemsTokens_nodes hint true child h, rfl⟩

theorem itemsTokens_nodes (hint : ∀ z : ℤ, -2 ^ 31 ≤ z → z < 2 ^ 31 → numberInt (sprintfD z) = z)
    (named : Bool) : ∀ cs : List CJsonNode, CJsonNode.PrintableAll dtoa named cs →
      ItemsTokens numberInt named (CJsonNode.jsonAll cs) (itemsTokens dtoa named cs)
  | [] => fun _ => rfl
  | c :: cs => by
    rintro ⟨hname, hc, hcs⟩
    refine ⟨_, _, _, ?_, valueTokens_node hint c hc, ?_, rfl⟩
    · rw [string_json]
      exact nameTokens_node hname
    · cases cs with
      | nil => exact rfl
      | cons d ds => exact ⟨_, itemsTokens_nodes hint named (d :: ds) hcs, rfl⟩

end

end

/-! ## Printing and parsing -/

theorem returns_releaseAll {σ : Type} : ∀ bs : List ℕ,
    Returns (releaseAll bs : HeapM σ Unit) fun _ => True
  | [] => Returns.pure trivial
  | b :: bs => (returns_release b).bind fun _ _ => returns_releaseAll bs

mutual

theorem returns_printValue {σ : Type} {env : CJsonEnv} (hmalloc : ∀ n, env.mallocOk n = true) :
    ∀ c : CJsonNode, Returns (printValue env c : HeapM σ _) fun r => r.isSome = true
  | .node item child => by
    have hsome : Returns (cJsonMalloc env : HeapM σ _) fun r => r.isSome = true :=
      (returns_cJsonMalloc hmalloc).imp fun r hr => by
        obtain ⟨b, rfl⟩ := hr
        rfl
    have houtput : Returns (printOutput env true : HeapM σ _) fun r => r.isSome = true := hsome
    unfold printValue
    split
    · split
      · exact hsome
      · refine (returns_cJsonMalloc hmalloc).bind fun r hr => ?_
        obtain ⟨entries, rfl⟩ := hr
        refine (returns_printEntries hmalloc child).bind fun r hr => ?_
        obtain ⟨rets, ok⟩ := r
        obtain rfl : ok = true := hr
        refine houtput.bind fun out hout => ?_
        refine (returns_releaseAll _).bind fun _ _ => ?_
        exact (returns_release entries).bind fun _ _ => Returns.pure hout
    · split
      · exact hsome
      · refine (returns_cJsonMalloc hmalloc).bind fun r hr => ?_
        obtain ⟨entries, rfl⟩ := hr
        refine (returns_cJsonMalloc hmalloc).bind fun r hr => ?_
        obtain ⟨names, rfl⟩ := hr
        refine (returns_printMembers hmalloc child).bind fun pairs hall => ?_
        dsimp only
        rw [hall]
        refine houtput.bind fun out hout => ?_
        refine (returns_releaseAll _).bind fun _ _ => ?_
        refine (returns_release names).bind fun _ _ => ?_
        exact (returns_release entries).bind fun _ _ => Returns.pure hout
    · exact hsome

theorem returns_printEntries {σ : Type} {env : CJsonEnv} (hmalloc : ∀ n, env.mallocOk n = true) :
    ∀ cs : List CJsonNode, Returns (printEntries env cs : HeapM σ _) fun r => r.2 = true
  | [] => Returns.pure rfl
  | c :: cs => by
    unfold printEntries
    refine (returns_printValue hmalloc c).bind fun r hr => ?_
    obtain ⟨ret, rfl⟩ := Option.isSome_iff_exists.mp hr
    refine (returns_printEntries hmalloc cs).bind fun r hr => ?_
    exact Returns.pure hr

theorem returns_printMembers {σ : Type} {env : CJsonEnv} (hmalloc : ∀ n, env.mallocOk n = true) :
    ∀ cs : List CJsonNode, Returns (printMembers env cs : HeapM σ _) fun r =>
      (r.all fun p => p.1.isSome && p.2.isSome) = true
  | [] => Returns.pure rfl
  | c :: cs => by
    unfold printMembers
    refine (returns_cJsonMalloc hmalloc).bind fun str hstr => ?_
    obtain ⟨str, rfl⟩ := hstr
    refine (returns_printValue hmalloc c).bind fun ret hret => ?_
    refine (returns_printMembers hmalloc cs).bind fun pairs hall => Returns.pure ?_
    rw [List.all_cons, hall, hret]
    rfl

end

/-- What is printed of a tree, formatted or not, is read as the same tree, if there is memory. -/
theorem print_parse {mallocOk : ℕ → Bool} (hmalloc : ∀ n, mallocOk n = true) {F : Doubles}
    (hF : F.Exact) {dtoa : CJsonItem → Option (List UInt8)} (hdtoa : FitsNumber dtoa)
    {c : CJsonNode} (hints : c.Ints) (h : c.Printable dtoa) (hname : c.item.string = none)
    (fmt : Bool) (tail : List UInt8) :
    Returns (cJsonPrintText ⟨mallocOk, F.numberInt⟩ dtoa fmt c >>= fun out =>
        cJsonParseWithOpts ⟨mallocOk, F.numberInt⟩ true (textOf out ++ 0 :: tail) : HeapM Unit _)
      fun r => ∃ c', r = some (c', 0 :: tail) ∧ c'.json.content = c.json.content := by
  have hprint := (agrees_printValueText (σ := Unit) ⟨mallocOk, F.numberInt⟩ hdtoa fmt c 0
    hints).returns (returns_printValue hmalloc c)
  refine hprint.bind fun out hout => ?_
  obtain ⟨b, htext, hsome⟩ := hout
  obtain ⟨block, rfl⟩ := Option.isSome_iff_exists.mp hsome
  rw [show out = some ⟨block, nodeText dtoa fmt 0 c⟩ from htext]
  have htoks := valueTokens_node (fun z hlow hhigh => Doubles.numberInt_sprintfD hF hlow hhigh) c h
  have hspaced : Spaced Blank (nodeTokens dtoa c) ([] ++ 0 :: tail)
      (nodeText dtoa fmt 0 c ++ 0 :: tail) :=
    (spaced_nodeText fmt c 0 (0 :: tail)).mono fun gap => FmtGap.blank
  have hstring : c.json.string = none := by
    rw [string_json, hname]
    rfl
  refine (parseWithOpts_text hmalloc hstring htoks blank_nil (.inl rfl) hspaced
    ⟨0, tail, rfl, by decide⟩ true).imp fun r hr => ?_
  obtain ⟨hnone, hcontent⟩ := hr
  cases r with
  | none => exact absurd rfl (hnone.mp rfl).2
  | some r =>
    obtain ⟨hcontent, hrest⟩ := hcontent r.1 r.2 rfl
    refine ⟨r.1, ?_, hcontent⟩
    rw [show (0 :: tail : List UInt8) = r.2 from hrest.symm]

/-- `{"a\n":[-12,""]}`, formatted. -/
theorem print_parse_object : Returns
    (cJsonPrintText ⟨fun _ => true, Doubles.ints.numberInt⟩ (fun _ => none) true
        (.node ⟨0, none, .object, 0, none⟩ [.node ⟨1, some ⟨2, [97, 10]⟩, .array, 0, none⟩
          [.node ⟨3, none, .number, -12, none⟩ [], .node ⟨4, none, .string, 0, some ⟨5, []⟩⟩ []]])
        >>= fun out => cJsonParseWithOpts ⟨fun _ => true, Doubles.ints.numberInt⟩ true
          (textOf out ++ 0 :: []) : HeapM Unit _)
    fun r => ∃ c', r = some (c', 0 :: []) ∧ c'.json.content =
      (CJsonNode.node ⟨0, none, .object, 0, none⟩ [.node ⟨1, some ⟨2, [97, 10]⟩, .array, 0, none⟩
        [.node ⟨3, none, .number, -12, none⟩ [],
          .node ⟨4, none, .string, 0, some ⟨5, []⟩⟩ []]]).json.content := by
  refine print_parse (fun _ => rfl) Doubles.exact_ints (fun item text h => ?_) ?_ ?_ rfl true []
  · exact absurd h (Option.some_ne_none text).symm
  · exact ⟨by decide, ⟨by decide, ⟨by decide, trivial⟩, ⟨by decide, trivial⟩, trivial⟩, trivial⟩
  · have hname : 0 ∉ ([97, 10] : List UInt8) := by decide
    exact ⟨hname, ⟨trivial, ⟨rfl, by decide, by decide⟩, trivial,
      ⟨⟨5, []⟩, rfl, List.not_mem_nil⟩, trivial⟩, trivial⟩

end WLink.Misc
