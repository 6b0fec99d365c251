import WLink.Misc.CJsonRender

/-!
# What is printed fits its blocks

The lengths that `print_string_ptr`, `print_array` and `print_object` compute are large enough for
what they put together, at every depth and whatever the children are. So printing a tree is what
`Misc.CJsonHeap` has of it, and the text in the block is `nodeText` (`agrees_printValueText`).
-/

namespace WLink.Misc

open WLink.Lib Httpd CString Exec

/-! ## Lengths -/

theorem length_escapeByte : ∀ b : UInt8, (escapeByte b).length =
    if letterEscaped b then 2 else if b < 32 then 6 else 1 := forall_byte (by decide +kernel)

/-- The first loop counts what the second one stores. -/
theorem length_escapeBytes (str : List UInt8) : (escapeBytes str).length = escapedLen str := by
  unfold escapeBytes escapedLen
  rw [List.length_flatMap]
  exact congrArg (fun f => (str.map f).sum) (funext length_escapeByte)

theorem length_quoted (t : List UInt8) : (quoted t).length = t.length + 2 := by
  unfold quoted
  rw [List.length_cons, List.length_append, List.length_singleton]

theorem length_joinEntries_le (fmt : Bool) (entries : List (List UInt8)) :
    (joinEntries fmt entries).length ≤
      (entries.map fun ret => ret.length + 2 + if fmt then 1 else 0).sum := by
  fun_induction joinEntries fmt entries with
  | case1 => exact Nat.zero_le _
  | case2 entry =>
    simp only [List.map_cons, List.map_nil, List.sum_cons, List.sum_nil]
    omega
  | case3 entry entries _ ih =>
    rw [List.map_cons, List.sum_cons]
    cases fmt <;> simp at ih ⊢ <;> omega

/-- The output of `print_array` has its place. -/
theorem length_arrayText_lt (fmt : Bool) (entries : List (List UInt8)) :
    (arrayText fmt entries).length < arrayLen fmt entries := by
  have hjoin := length_joinEntries_le fmt entries
  unfold arrayText arrayLen
  rw [List.length_cons, List.length_append, List.length_singleton]
  omega

theorem length_tabs (fmt : Bool) (depth : ℕ) :
    (tabs fmt depth).length = if fmt then depth else 0 := by
  cases fmt with
  | true => exact List.length_replicate
  | false => rfl

theorem length_lineBreak (fmt : Bool) : (lineBreak fmt).length = if fmt then 1 else 0 := by
  cases fmt <;> rfl

theorem length_joinMembers_le (fmt : Bool) (depth : ℕ) (members : List (List UInt8 × List UInt8)) :
    (joinMembers fmt depth members).length ≤ (members.map fun m =>
      m.2.length + m.1.length + 2 + if fmt then 2 + depth else 0).sum := by
  induction members with
  | nil => exact Nat.zero_le _
  | cons m members ih =>
    obtain ⟨name, entry⟩ := m
    have hcomma : (if members.isEmpty then [] else [44] : List UInt8).length ≤ 1 := by
      split_ifs <;> decide
    rw [List.map_cons, List.sum_cons]
    unfold joinMembers
    generalize (if members.isEmpty then [] else [44] : List UInt8) = comma at *
    simp only [List.length_append, List.length_cons, length_tabs, length_lineBreak]
    cases fmt <;> simp at ih ⊢ <;> omega

/-- The output of `print_object` has its place. -/
theorem length_objectText_lt (fmt : Bool) (depth : ℕ) (members : List (List UInt8 × List UInt8)) :
    (objectText fmt depth members).length < objectLen fmt depth members := by
  have hjoin := length_joinMembers_le fmt depth members
  unfold objectText objectLen
  simp only [List.length_append, List.length_cons, List.length_nil, length_tabs, length_lineBreak]
  cases fmt <;> simp at hjoin ⊢ <;> omega

theorem length_emptyObjectText_lt (fmt : Bool) (depth : ℕ) :
    (emptyObjectText fmt depth).length < if fmt then depth + 4 else 3 := by
  unfold emptyObjectText
  simp only [List.length_append, List.length_cons, List.length_nil, length_tabs, length_lineBreak]
  cases fmt with
  | true =>
    simp only [if_true]
    omega
  | false => exact Nat.lt_succ_self 2

theorem length_sprintfD_lt {z : ℤ} (hlow : -2 ^ 31 ≤ z) (hhigh : z < 2 ^ 31) :
    (sprintfD z).length < 21 := by
  have hdecimal := length_decimal_le (n := z.natAbs) (by omega)
  unfold sprintfD
  split_ifs
  · rw [List.length_cons]
    omega
  · omega

/-! ## The blocks -/

/-- What `sprintf` makes of a double has its place in the 64 bytes that there are for it. -/
def FitsNumber (dtoa : CJsonItem → Option (List UInt8)) : Prop :=
  ∀ item text, dtoa item = some text → text.length < 64

mutual

/-- Every `valueint` in the tree is an `int`. -/
def CJsonNode.Ints : CJsonNode → Prop
  | .node item child => (-2 ^ 31 ≤ item.valueint ∧ item.valueint < 2 ^ 31) ∧ IntsAll child

def CJsonNode.IntsAll : List CJsonNode → Prop
  | [] => True
  | c :: cs => c.Ints ∧ IntsAll cs

end

/-- The text is in the block. -/
def TextIn (text : List UInt8) (r : Option HeapString) (b : Option ℕ) : Prop :=
  r = b.map fun out => ⟨out, text⟩

section

variable {σ : Type} (env : CJsonEnv) {dtoa : CJsonItem → Option (List UInt8)} {text : List UInt8}

theorem agrees_mallocText {size : ℕ} (h : text.length < size) :
    Agrees (TextIn text) (mallocText env size text : HeapM σ _) (cJsonMalloc env) := by
  have hroom : ¬ size < text.length + 1 := by omega
  have hmalloc : (cJsonMalloc env : HeapM σ _) = cJsonMalloc env >>= pure := (bind_pure _).symm
  rw [hmalloc]
  unfold mallocText
  refine Agrees.bind_same fun b => ?_
  cases b with
  | none => exact Agrees.pure rfl
  | some out =>
    show Agrees _ (if size < text.length + 1 then _ else _) _
    rw [if_neg hroom]
    exact Agrees.pure rfl

theorem agrees_strdupText (str : List UInt8) :
    Agrees (TextIn str) (strdupText env str : HeapM σ _) (cJsonMalloc env) :=
  agrees_mallocText env (Nat.lt_succ_self _)

theorem agrees_printStringPtr (str : Option HeapString) :
    Agrees (TextIn (stringPtrText str)) (printStringPtr env str : HeapM σ _) (cJsonMalloc env) := by
  cases str with
  | none => exact agrees_strdupText env []
  | some str =>
    have hlength : (stringPtrText (some str)).length = escapedLen str.bytes + 2 := by
      rw [← length_escapeBytes]
      exact length_quoted _
    refine agrees_mallocText env ?_
    rw [hlength]
    exact Nat.lt_succ_self _

theorem agrees_printNumberText (hdtoa : FitsNumber dtoa) {item : CJsonItem}
    (hint : -2 ^ 31 ≤ item.valueint ∧ item.valueint < 2 ^ 31) :
    Agrees (TextIn ((dtoa item).getD (sprintfD item.valueint)))
      (printNumberText env dtoa item : HeapM σ _) (cJsonMalloc env) := by
  unfold printNumberText
  cases htext : dtoa item with
  | none => exact agrees_mallocText env (length_sprintfD_lt hint.1 hint.2)
  | some text => exact agrees_mallocText env (hdtoa item text htext)

theorem agrees_printOutputText (ok : Bool) (text' : List UInt8) {size : ℕ}
    (h : text.length < size) (htext : ok = true → text = text') :
    Agrees (TextIn text') (printOutputText env ok size text : HeapM σ _) (printOutput env ok) := by
  refine Agrees.ite Iff.rfl (fun hok => ?_) fun _ => Agrees.pure rfl
  rw [← htext hok]
  exact agrees_mallocText env h

/-- The strings are in the blocks, and if nothing has failed they are the texts. -/
def EntriesIn (texts : List (List UInt8)) (r : List HeapString × Bool) (b : List ℕ × Bool) : Prop :=
  r.1.map HeapString.block = b.1 ∧ r.2 = b.2 ∧
    (b.2 = true → r.1.map HeapString.bytes = texts)

def MembersIn (texts : List (List UInt8 × List UInt8))
    (r : List (Option HeapString × Option HeapString)) (b : List (Option ℕ × Option ℕ)) : Prop :=
  r.map (fun p => (p.1.map HeapString.block, p.2.map HeapString.block)) = b ∧
    ((r.all fun p => p.1.isSome && p.2.isSome) = true →
      r.map (fun p => (textOf p.1, textOf p.2)) = texts)

theorem TextIn.block {r : Option HeapString} {b : Option ℕ} (h : TextIn text r b) :
    r.map HeapString.block = b := by
  rw [h]
  cases b <;> rfl

theorem TextIn.textOf {r : Option HeapString} {b : Option ℕ} (h : TextIn text r b)
    (hsome : r.isSome = true) : textOf r = text := by
  rw [h] at hsome ⊢
  cases b with
  | none => exact Bool.noConfusion hsome
  | some b => rfl

mutual

/-- What is printed is the text of the tree, and nothing is written behind a block. The induction is
on the tree. -/
theorem agrees_printValueText (hdtoa : FitsNumber dtoa) (fmt : Bool) : ∀ (c : CJsonNode) (depth : ℕ),
    c.Ints → Agrees (TextIn (nodeText dtoa fmt depth c))
      (printValueText env dtoa fmt depth c : HeapM σ _) (printValue env c)
  | .node item child, depth => by
    rintro ⟨hint, hchild⟩
    obtain ⟨block, string, type, valueint, valuestring⟩ := item
    cases type with
    | null => exact agrees_strdupText env _
    | cFalse => exact agrees_strdupText env _
    | cTrue => exact agrees_strdupText env _
    | number => exact agrees_printNumberText env hdtoa hint
    | string => exact agrees_printStringPtr env valuestring
    | array =>
      by_cases hempty : child.isEmpty = true
      · have hnil := List.isEmpty_iff.mp hempty
        subst hnil
        exact agrees_mallocText env (Nat.lt_succ_self 2)
      · unfold printValueText printValue
        refine Agrees.ite Iff.rfl (fun h => absurd h hempty) fun _ => ?_
        refine Agrees.bind_same fun b => ?_
        cases b with
        | none => exact Agrees.pure rfl
        | some entries =>
          refine (agrees_printEntriesText hdtoa fmt child (depth + 1) hchild).bind fun r b hr => ?_
          obtain ⟨rets, ok⟩ := r
          obtain ⟨blocks, ok'⟩ := b
          obtain ⟨rfl, rfl, htexts⟩ := hr
          refine (agrees_printOutputText env ok
            (arrayText fmt (entryTexts dtoa fmt (depth + 1) child)) (length_arrayText_lt fmt _)
            fun hok => ?_).bind fun out out' hout => ?_
          · exact congrArg (arrayText fmt) (htexts hok)
          · exact Agrees.bind_same fun _ => Agrees.bind_same fun _ => Agrees.pure hout
    | object =>
      by_cases hempty : child.isEmpty = true
      · have hnil := List.isEmpty_iff.mp hempty
        subst hnil
        exact agrees_mallocText env (length_emptyObjectText_lt fmt depth)
      · have htext : ∀ item, nodeText dtoa fmt depth (.node ⟨block, string, .object, item,
            valuestring⟩ child) =
            objectText fmt (depth + 1) (memberTexts dtoa fmt (depth + 1) child) :=
          fun item => if_neg hempty
        rw [htext]
        unfold printValueText printValue
        refine Agrees.ite Iff.rfl (fun h => absurd h hempty) fun _ => ?_
        refine Agrees.bind_same fun b => ?_
        cases b with
        | none => exact Agrees.pure rfl
        | some entries =>
          refine Agrees.bind_same fun b => ?_
          cases b with
          | none => exact Agrees.bind_same fun _ => Agrees.pure rfl
          | some names =>
            refine (agrees_printMembersText hdtoa fmt child (depth + 1) hchild).bind
              fun pairs blocks hr => ?_
            obtain ⟨rfl, htexts⟩ := hr
            have hall : ((pairs.map fun p =>
                (p.1.map HeapString.block, p.2.map HeapString.block)).all fun p =>
                  p.1.isSome && p.2.isSome) = pairs.all fun p => p.1.isSome && p.2.isSome := by
              simp [List.all_map, Function.comp_def]
            dsimp only
            rw [hall]
            refine (agrees_printOutputText env _
              (objectText fmt (depth + 1) (memberTexts dtoa fmt (depth + 1) child))
              (length_objectText_lt fmt (depth + 1) _) fun hok => ?_).bind fun out out' hout => ?_
            · exact congrArg (objectText fmt (depth + 1)) (htexts hok)
            · rw [List.flatMap_map]
              exact Agrees.bind_same fun _ => Agrees.bind_same fun _ => Agrees.bind_same fun _ =>
                Agrees.pure hout

theorem agrees_printEntriesText (hdtoa : FitsNumber dtoa) (fmt : Bool) :
    ∀ (cs : List CJsonNode) (depth : ℕ), CJsonNode.IntsAll cs →
      Agrees (EntriesIn (entryTexts dtoa fmt depth cs))
        (printEntriesText env dtoa fmt depth cs : HeapM σ _) (printEntries env cs)
  | [], _ => fun _ => Agrees.pure ⟨rfl, rfl, fun _ => rfl⟩
  | c :: cs, depth => by
    rintro ⟨hc, hcs⟩
    unfold printEntriesText printEntries
    refine (agrees_printValueText hdtoa fmt c depth hc).bind fun r b hr => ?_
    cases b with
    | none =>
      rw [show r = none from hr]
      exact Agrees.pure ⟨rfl, rfl, fun h => Bool.noConfusion h⟩
    | some b =>
      rw [show r = some ⟨b, nodeText dtoa fmt depth c⟩ from hr]
      refine (agrees_printEntriesText hdtoa fmt cs depth hcs).bind fun r b' hr => ?_
      obtain ⟨hblocks, hok, htexts⟩ := hr
      refine Agrees.pure ⟨congrArg (b :: ·) hblocks, hok, fun h => ?_⟩
      exact congrArg (nodeText dtoa fmt depth c :: ·) (htexts h)

theorem agrees_printMembersText (hdtoa : FitsNumber dtoa) (fmt : Bool) :
    ∀ (cs : List CJsonNode) (depth : ℕ), CJsonNode.IntsAll cs →
      Agrees (MembersIn (memberTexts dtoa fmt depth cs))
        (printMembersText env dtoa fmt depth cs : HeapM σ _) (printMembers env cs)
  | [], _ => fun _ => Agrees.pure ⟨rfl, fun _ => rfl⟩
  | c :: cs, depth => by
    rintro ⟨hc, hcs⟩
    unfold printMembersText printMembers
    refine (agrees_printStringPtr env c.item.string).bind fun str b hstr => ?_
    refine (agrees_printValueText hdtoa fmt c depth hc).bind fun ret b' hret => ?_
    refine (agrees_printMembersText hdtoa fmt cs depth hcs).bind fun pairs blocks hr => ?_
    obtain ⟨hblocks, htexts⟩ := hr
    refine Agrees.pure ⟨?_, fun hall => ?_⟩
    · show (str.map HeapString.block, ret.map HeapString.block) :: _ = _
      rw [hstr.block, hret.block, hblocks]
    · rw [List.all_cons, Bool.and_eq_true, Bool.and_eq_true] at hall
      obtain ⟨⟨hstr', hret'⟩, hall⟩ := hall
      show (textOf str, textOf ret) :: _ = _
      rw [hstr.textOf hstr', hret.textOf hret', htexts hall]
      rfl

end

end

/-- Whichever allocations fail, printing a tree writes behind no block and frees all blocks but that of
the text, and otherwise it does what it does without the texts. -/
theorem cJsonPrintText_safe {σ : Type} (env : CJsonEnv) {dtoa : CJsonItem → Option (List UInt8)}
    (hdtoa : FitsNumber dtoa) {c : CJsonNode} (hints : c.Ints) (fmt : Bool) :
    Transfers noFault [] (cJsonPrintText env dtoa fmt c : HeapM σ _)
        (fun r => (r.map HeapString.block).toList) ∧
      Agrees (TextIn (nodeText dtoa fmt 0 c)) (cJsonPrintText env dtoa fmt c : HeapM σ _)
        (cJsonPrint env c) := by
  have hagrees := agrees_printValueText (σ := σ) env hdtoa fmt c 0 hints
  refine ⟨hagrees.transfers (transfers_cJsonPrint env c) fun r b hr => ?_, hagrees⟩
  rw [hr.block]

/-- An array with an empty object in it, when every second allocation fails. -/
theorem cJsonPrintText_safe_array :
    Transfers noFault [] (cJsonPrintText ⟨fun n => n % 2 = 0, fun _ => 0⟩ (fun _ => none) true
        (.node ⟨0, none, .array, 0, none⟩ [.node ⟨1, none, .object, 0, none⟩ []]) : HeapM Unit _)
        (fun r => (r.map HeapString.block).toList) ∧
      Agrees (TextIn (nodeText (fun _ => none) true 0
          (.node ⟨0, none, .array, 0, none⟩ [.node ⟨1, none, .object, 0, none⟩ []])))
        (cJsonPrintText ⟨fun n => n % 2 = 0, fun _ => 0⟩ (fun _ => none) true
          (.node ⟨0, none, .array, 0, none⟩ [.node ⟨1, none, .object, 0, none⟩ []]) : HeapM Unit _)
        (cJsonPrint ⟨fun n => n % 2 = 0, fun _ => 0⟩
          (.node ⟨0, none, .array, 0, none⟩ [.node ⟨1, none, .object, 0, none⟩ []])) := by
  refine cJsonPrintText_safe _ (fun item text h => absurd h (Option.some_ne_none text).symm) ?_ true
  exact ⟨by decide, ⟨by decide, trivial⟩, trivial⟩

end WLink.Misc
