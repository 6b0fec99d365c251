import WLink.Misc.CJsonGrammar
import WLink.Misc.CJsonNumber
import WLink.Misc.CJsonOwnership

/-!
# The parser reads every text

Whatever the blanks between the tokens are and whichever escapes its strings are written with, the
text of a value is read as the value (`returns_parseValue_of`, `parses_text`).
-/

namespace WLink.Misc

open WLink.Lib Httpd CString Exec
open CJson (contentAll)

/-! ## What a text begins with -/

section

variable {numberInt : List UInt8 → ℤ} {toks : List (List UInt8)}

/-- The bracket behind the children. -/
def closing (named : Bool) : UInt8 := if named then 125 else 93

theorem closing_gt (named : Bool) : 32 < closing named := by cases named <;> decide

theorem valueTokens_cons {v : CJson} (h : ValueTokens numberInt v toks) :
    ∃ b bs toks', toks = (b :: bs) :: toks' ∧ 32 < b ∧ b ≠ 93 := by
  obtain ⟨string, type, valueint, valuestring, child⟩ := v
  unfold ValueTokens at h
  cases type with
  | null => exact ⟨110, ascii "ull", [], h, by decide, by decide⟩
  | cFalse => exact ⟨102, ascii "alse", [], h, by decide, by decide⟩
  | cTrue => exact ⟨116, ascii "rue", [], h, by decide, by decide⟩
  | number =>
    obtain ⟨t, ht, -, rfl⟩ := h
    obtain ⟨b, bs, rfl, hb⟩ := ht.cons
    have hall : ∀ b, b = 45 ∨ isDigit b = true → 32 < b ∧ b ≠ 93 := forall_byte (by decide +kernel)
    exact ⟨b, bs, [], rfl, hall b hb⟩
  | string =>
    obtain ⟨t, -, rfl⟩ := h
    exact ⟨34, _, [], rfl, by decide, by decide⟩
  | array =>
    obtain ⟨items, -, rfl⟩ := h
    exact ⟨91, [], _, rfl, by decide, by decide⟩
  | object =>
    obtain ⟨items, -, rfl⟩ := h
    exact ⟨123, [], _, rfl, by decide, by decide⟩

/-- Children do not begin like the bracket behind them. -/
theorem itemsTokens_cons {named : Bool} {c : CJson} {cs : List CJson}
    (h : ItemsTokens numberInt named (c :: cs) toks) :
    ∃ b bs toks', toks = (b :: bs) :: toks' ∧ 32 < b ∧ b ≠ closing named := by
  obtain ⟨name, value, more, hname, hvalue, -, rfl⟩ := h
  unfold NameTokens at hname
  split at hname
  · obtain ⟨t, -, rfl⟩ := hname
    exact ⟨34, _, _, rfl, by decide, by decide⟩
  · obtain ⟨b, bs, toks', rfl, hb, hb'⟩ := valueTokens_cons hvalue
    rw [hname]
    exact ⟨b, bs, _, rfl, hb, hb'⟩
  · exact hname.elim

/-- Behind a value there is a comma or a bracket, if only after blanks. -/
theorem endsNumber_of_spaced {b : UInt8} {rest text : List UInt8}
    (h : Spaced Blank ([b] :: toks) rest text) (hb : b = 44 ∨ b = 93 ∨ b = 125) :
    EndsNumber text := by
  obtain ⟨gap, text', hgap, rfl, -⟩ := spaced_cons.mp h
  cases gap with
  | nil =>
    refine ⟨b, text', rfl, ?_⟩
    rcases hb with rfl | rfl | rfl <;> decide
  | cons c cs =>
    have hall : ∀ c, c ≤ 32 → isDigit c = false ∧ c ≠ 46 ∧ c ≠ 101 ∧ c ≠ 69 :=
      forall_byte (by decide +kernel)
    exact ⟨c, _, rfl, hall c (hgap c List.mem_cons_self).2⟩

end

/-! ## Values -/

section

variable {σ : Type} {env : CJsonEnv} (hmalloc : ∀ n, env.mallocOk n = true)
include hmalloc

/-- The name in front of a value is read, and the value comes next. -/
theorem returns_parseStart_of {named : Bool} {string : Option (List UInt8)}
    {name toks : List (List UInt8)} (hname : NameTokens named string name) (b : ℕ)
    {rest value : List UInt8} (h : Spaced Blank (name ++ toks) rest value) :
    Returns (parseStart env named ⟨b, none, .cFalse, 0, none⟩ value : HeapM σ _) fun r =>
      r.1.string.map HeapString.bytes = string ∧
        ∃ value', r.2 = some value' ∧ Spaced Blank toks rest value' ∧
          value'.length ≤ value.length := by
  unfold NameTokens at hname
  split at hname
  · obtain ⟨t, ht, rfl⟩ := hname
    obtain ⟨value', hskip, hcolon, hle⟩ := skip_spaced h (by decide)
    obtain ⟨value'', hskip', hvalue, hle'⟩ := skip_spaced hcolon (by decide)
    rw [List.length_cons] at hle hle'
    rw [List.length_append] at hle
    refine Returns.bind_lift hskip ?_
    refine (returns_parseString_of hmalloc ht _ value').bind fun r hr => ?_
    obtain ⟨out, rfl⟩ := hr
    refine Returns.bind_lift hskip' (Returns.pure ⟨rfl, value'', rfl, hvalue, ?_⟩)
    rw [List.nil_append] at hle'
    omega
  · rw [hname] at h
    exact Returns.pure ⟨rfl, value, rfl, h, Nat.le_refl _⟩
  · exact hname.elim

omit hmalloc in
/-- A number is read as what it comes to. -/
theorem parseNumber_of {t : List UInt8} (h : NumberText t) (item : CJsonItem) {rest : List UInt8}
    (hrest : EndsNumber rest) : parseNumber env item (t ++ rest) =
      .ok ({ item with valueint := env.numberInt t, type := .number }, rest) := by
  have htake : (t ++ rest).take ((t ++ rest).length - rest.length) = t := by
    rw [List.length_append, Nat.add_sub_cancel, List.take_left]
  unfold parseNumber
  rw [skipNumber_of h hrest]
  show Except.ok ({ item with valueint := env.numberInt _, type := _ }, _) = _
  rw [htake]

omit hmalloc in
/-- `parse_array` and `parse_object` behind the opening bracket. -/
theorem returns_parseBody_of (named : Bool) {child : List CJson} {items : List (List UInt8)}
    {fuel : ℕ} {rest text : List UInt8} (item : CJsonItem)
    (hitems : ItemsTokens env.numberInt named child items)
    (h : Spaced Blank (items ++ [[closing named]]) rest text)
    (hchildren : child ≠ [] → ∀ value, Spaced Blank (items ++ [[closing named]]) rest value →
      value.length ≤ text.length →
      Returns (parseChildren env fuel named value : HeapM σ _) fun r =>
        contentAll (CJsonNode.jsonAll r.1) = contentAll child ∧ r.2 = some rest) :
    Returns (Exec.lift (skip text) >>= fun value =>
        if value.head? = some (closing named) then pure (.node item [], some value.tail)
        else parseChildren env fuel named value >>= fun r => pure (.node item r.1, r.2) :
          HeapM σ (CJsonNode × Option (List UInt8))) fun r =>
      ∃ nodes, r = (.node item nodes, some rest) ∧
        contentAll (CJsonNode.jsonAll nodes) = contentAll child := by
  cases child with
  | nil =>
    have hnil : items = [] := hitems
    rw [hnil, List.nil_append] at h
    obtain ⟨text', hskip, hrest, -⟩ := skip_spaced h (closing_gt named)
    rw [spaced_nil.mp hrest] at hskip
    have hhead : (closing named :: ([] ++ rest)).head? = some (closing named) := rfl
    refine Returns.bind_lift hskip ?_
    rw [if_pos hhead]
    exact Returns.pure ⟨[], rfl, rfl⟩
  | cons c cs =>
    obtain ⟨b, bs, toks', rfl, hb, hne⟩ := itemsTokens_cons hitems
    obtain ⟨text', hskip, hrest, hle⟩ := skip_spaced h hb
    have hhead : ¬ (b :: (bs ++ text')).head? = some (closing named) :=
      fun heq => hne (Option.some.inj heq)
    refine Returns.bind_lift hskip ?_
    rw [if_neg hhead]
    refine (hchildren (List.cons_ne_nil c cs) _ (.cons blank_nil hrest) hle).bind fun r hr => ?_
    obtain ⟨nodes, after⟩ := r
    obtain ⟨hcontent, hafter⟩ := hr
    subst hafter
    exact Returns.pure ⟨nodes, rfl, hcontent⟩

mutual

/-- A value is read from each of its texts. The induction is on the value. -/
theorem returns_parseValue_of : ∀ (v : CJson) (toks : List (List UInt8)) (fuel : ℕ)
    (item : CJsonItem) (rest text : List UInt8), ValueTokens env.numberInt v toks →
      item.string.map HeapString.bytes = v.string → Spaced Blank toks rest text →
      EndsNumber rest → 2 * text.length < fuel →
      ∃ value, skip text = .ok value ∧
        Returns (parseValue env fuel item value : HeapM σ _) fun r =>
          r.1.json.content = v.content ∧ r.2 = some rest
  | .item name type valueint valuestring child, toks, 0, _, _, _ => by
    intro _ _ _ _ hfuel
    exact absurd hfuel (Nat.not_lt_zero _)
  | .item name type valueint valuestring child, toks, fuel + 1, item, rest, text => by
    intro htoks hname h hrest hfuel
    have hstring : item.string.map HeapString.bytes = name := hname
    subst hstring
    -- the children, up to and with the bracket behind them
    have hitems : ∀ (named : Bool) (items : List (List UInt8)) (text' : List UInt8),
        ItemsTokens env.numberInt named child items → text'.length < text.length →
        child ≠ [] → ∀ value, Spaced Blank (items ++ [[closing named]]) rest value →
        value.length ≤ text'.length →
        Returns (parseChildren env fuel named value : HeapM σ _) fun r =>
          contentAll (CJsonNode.jsonAll r.1) = contentAll child ∧ r.2 = some rest := by
      intro named items text' hitems hlt hne value hvalue hle
      exact returns_parseChildren_of child items fuel named value rest hne hitems hvalue (by omega)
    unfold ValueTokens at htoks
    cases type with
    | null =>
      subst htoks
      obtain ⟨text', hskip, hend, -⟩ := skip_spaced h (by decide)
      rw [spaced_nil.mp hend] at hskip
      exact ⟨_, hskip, Returns.bind_lift (valueKind_null rest) (Returns.pure ⟨rfl, rfl⟩)⟩
    | cFalse =>
      subst htoks
      obtain ⟨text', hskip, hend, -⟩ := skip_spaced h (by decide)
      rw [spaced_nil.mp hend] at hskip
      exact ⟨_, hskip, Returns.bind_lift (valueKind_false rest) (Returns.pure ⟨rfl, rfl⟩)⟩
    | cTrue =>
      subst htoks
      obtain ⟨text', hskip, hend, -⟩ := skip_spaced h (by decide)
      rw [spaced_nil.mp hend] at hskip
      exact ⟨_, hskip, Returns.bind_lift (valueKind_true rest) (Returns.pure ⟨rfl, rfl⟩)⟩
    | number =>
      obtain ⟨t, ht, rfl, rfl⟩ := htoks
      obtain ⟨b, bs, rfl, hb⟩ := ht.cons
      have hall : ∀ b, b = 45 ∨ isDigit b = true → 32 < b := forall_byte (by decide +kernel)
      obtain ⟨text', hskip, hend, -⟩ := skip_spaced h (hall b hb)
      rw [spaced_nil.mp hend] at hskip
      have hnumber : valueKind (b :: (bs ++ rest)) = .ok .number := by
        rcases hb with rfl | hdigit
        · exact valueKind_of_head (by decide) (by decide) (by decide) _
        · exact valueKind_of_digit hdigit _
      exact ⟨_, hskip, Returns.bind_lift hnumber (Returns.bind_lift (parseNumber_of ht item hrest)
        (Returns.pure ⟨rfl, rfl⟩))⟩
    | string =>
      obtain ⟨t, ht, rfl⟩ := htoks
      obtain ⟨text', hskip, hend, -⟩ := skip_spaced h (by decide)
      rw [spaced_nil.mp hend] at hskip
      refine ⟨_, hskip, ?_⟩
      refine Returns.bind_lift (valueKind_of_head (by decide) (by decide) (by decide) _) ?_
      refine (returns_parseString_of hmalloc ht item rest).bind fun r hr => ?_
      obtain ⟨out, rfl⟩ := hr
      exact Returns.pure ⟨rfl, rfl⟩
    | array =>
      obtain ⟨items, htoks, rfl⟩ := htoks
      obtain ⟨text', hskip, hbody, hle⟩ := skip_spaced h (by decide)
      rw [List.nil_append, List.length_cons] at hle
      refine ⟨_, hskip, ?_⟩
      refine Returns.bind_lift (valueKind_of_head (by decide) (by decide) (by decide) _) ?_
      refine (returns_parseBody_of false _ htoks hbody
        (hitems false items text' htoks hle)).imp fun r hr => ?_
      obtain ⟨nodes, rfl, hcontent⟩ := hr
      exact ⟨congrArg (CJson.item _ _ 0 []) hcontent, rfl⟩
    | object =>
      obtain ⟨items, htoks, rfl⟩ := htoks
      obtain ⟨text', hskip, hbody, hle⟩ := skip_spaced h (by decide)
      rw [List.nil_append, List.length_cons] at hle
      refine ⟨_, hskip, ?_⟩
      refine Returns.bind_lift (valueKind_of_head (by decide) (by decide) (by decide) _) ?_
      refine (returns_parseBody_of true _ htoks hbody
        (hitems true items text' htoks hle)).imp fun r hr => ?_
      obtain ⟨nodes, rfl, hcontent⟩ := hr
      exact ⟨congrArg (CJson.item _ _ 0 []) hcontent, rfl⟩

/-- Children are read up to and with the bracket behind them. -/
theorem returns_parseChildren_of : ∀ (vs : List CJson) (toks : List (List UInt8)) (fuel : ℕ)
    (named : Bool) (value rest : List UInt8), vs ≠ [] →
      ItemsTokens env.numberInt named vs toks →
      Spaced Blank (toks ++ [[closing named]]) rest value → 2 * value.length + 1 < fuel →
      Returns (parseChildren env fuel named value : HeapM σ _) fun r =>
        contentAll (CJsonNode.jsonAll r.1) = contentAll vs ∧ r.2 = some rest
  | [], _, _, _, _, _ => fun h => absurd rfl h
  | v :: vs, _, 0, _, _, _ => by
    intro _ _ _ hfuel
    exact absurd hfuel (Nat.not_lt_zero _)
  | v :: vs, toks, fuel + 1, named, value, rest => by
    intro _ htoks h hfuel
    obtain ⟨name, vtoks, more, hname, hvtoks, hmore, rfl⟩ := htoks
    rw [List.append_assoc, List.append_assoc] at h
    refine (returns_cJsonNewItem hmalloc).bind fun r hr => ?_
    obtain ⟨b, rfl⟩ := hr
    refine (returns_parseStart_of hmalloc hname b h).bind fun r hr => ?_
    obtain ⟨item, start⟩ := r
    obtain ⟨hitem, value', hstart, hvalue', hle⟩ := hr
    subst hstart
    obtain ⟨mid, hvalue, hafter⟩ := spaced_append.mp hvalue'
    have hmid := hvalue.length_le
    -- what comes behind the value is a comma or the bracket
    have hends : EndsNumber mid := by
      split_ifs at hmore with hlast
      · rw [hmore, List.nil_append] at hafter
        exact endsNumber_of_spaced hafter (.inr (by cases named <;> decide))
      · obtain ⟨items, -, rfl⟩ := hmore
        exact endsNumber_of_spaced hafter (.inl rfl)
    obtain ⟨value'', hskip, hparse⟩ := returns_parseValue_of v vtoks fuel item mid value' hvtoks
      hitem hvalue hends (by omega)
    refine Returns.bind_lift hskip (hparse.bind fun r hr => ?_)
    obtain ⟨node, after⟩ := r
    obtain ⟨hcontent, hrest⟩ := hr
    subst hrest
    have hcons : ∀ nodes, contentAll (CJsonNode.jsonAll nodes) = contentAll vs →
        contentAll (CJsonNode.jsonAll (node :: nodes)) = contentAll (v :: vs) := by
      intro nodes hnodes
      show node.json.content :: contentAll (CJsonNode.jsonAll nodes) = v.content :: contentAll vs
      rw [hcontent, hnodes]
    cases vs with
    | nil =>
      have hnil : more = [] := hmore
      rw [hnil, List.nil_append] at hafter
      obtain ⟨after, hskip', hend, -⟩ := skip_spaced hafter (closing_gt named)
      rw [spaced_nil.mp hend] at hskip'
      have hcomma : ¬ (closing named :: ([] ++ rest)).head? = some 44 := by
        cases named <;> exact fun heq => absurd (Option.some.inj heq) (by decide)
      have hclose : (closing named :: ([] ++ rest)).head? = some (if named then 125 else 93) := rfl
      refine Returns.bind_lift hskip' ?_
      rw [if_neg hcomma, if_pos hclose]
      exact Returns.pure ⟨hcons [] rfl, rfl⟩
    | cons d ds =>
      rw [if_neg Bool.noConfusion] at hmore
      obtain ⟨items, hitems, rfl⟩ := hmore
      obtain ⟨after, hskip', hnext, hlt⟩ := skip_spaced hafter (by decide)
      have hcomma : (44 :: ([] ++ after)).head? = some 44 := rfl
      rw [List.length_cons, List.nil_append] at hlt
      refine Returns.bind_lift hskip' ?_
      rw [if_pos hcomma]
      refine (returns_parseChildren_of (d :: ds) items fuel named _ rest (List.cons_ne_nil d ds)
        hitems hnext (by
          show 2 * after.length + 1 < fuel
          omega)).bind fun r hr => ?_
      obtain ⟨nodes, after'⟩ := r
      obtain ⟨hcontents, hrest⟩ := hr
      subst hrest
      exact Returns.pure ⟨hcons nodes hcontents, rfl⟩

end

end

/-! ## `cJSON_ParseWithOpts` -/

section

variable {σ : Type} (env : CJsonEnv)

/-- `cJSON_ParseWithOpts`: the tree, and the text at `return_parse_end`. -/
def cJsonParseWithOpts (requireNullTerminated : Bool) (value : List UInt8) :
    HeapM σ (Option (CJsonNode × List UInt8)) := do
  match ← cJsonNewItem env with
  | none => pure none
  | some item =>
    let (c, rest) ← parseValue env (2 * value.length + 1) item (← Exec.lift (skip value))
    match rest with
    | none =>
      cJsonDelete c
      pure none
    | some rest =>
      if requireNullTerminated then
        let rest ← Exec.lift (skip rest)
        if rest.head? = some 0 then pure (some (c, rest))
        else
          cJsonDelete c
          pure none
      else pure (some (c, rest))

/-- A text that is refused leaves nothing behind. -/
theorem transfers_cJsonParseWithOpts (requireNullTerminated : Bool) (value : List UInt8) :
    Transfers notHang [] (cJsonParseWithOpts env requireNullTerminated value : HeapM σ _)
      fun r => treeBlocks (r.map Prod.fst) := by
  have hnone : ∀ c : CJsonNode, Transfers notHang c.blocks
      (cJsonDelete c >>= fun _ => pure none : HeapM σ (Option (CJsonNode × List UInt8)))
      fun r => treeBlocks (r.map Prod.fst) :=
    fun c => (transfers_cJsonDelete c).weaken.bind fun _ =>
      Transfers.pure none fun r => treeBlocks (r.map Prod.fst)
  refine transfers_newItem_bind env (.pure none fun r => treeBlocks (r.map Prod.fst)) fun b => ?_
  refine (transfers_skip value _).bind_of (yields_skip value) fun value' hle => ?_
  refine ((transfers_parse env _).1 (freshItem b) value' rfl (by omega)).bind fun r => ?_
  obtain ⟨c, rest⟩ := r
  cases rest with
  | none => exact hnone c
  | some rest =>
    have hsome : ∀ rest, Transfers notHang c.blocks
        (pure (some (c, rest)) : HeapM σ (Option (CJsonNode × List UInt8)))
        fun r => treeBlocks (r.map Prod.fst) :=
      fun rest => Transfers.pure (some (c, rest)) fun r => treeBlocks (r.map Prod.fst)
    refine Transfers.ite (fun _ => ?_) fun _ => hsome rest
    refine (transfers_skip rest _).bind fun rest' => ?_
    exact Transfers.ite (fun _ => hsome rest') fun _ => hnone c

end

theorem returns_release {σ : Type} (b : ℕ) : Returns (release b : HeapM σ Unit) fun _ => True :=
  fun s => ⟨(), _, exec_release b s, trivial⟩

theorem returns_freeString {σ : Type} (str : Option HeapString) :
    Returns (freeString str : HeapM σ Unit) fun _ => True := by
  cases str with
  | none => exact Returns.pure trivial
  | some str => exact returns_release str.block

mutual

theorem returns_cJsonDelete {σ : Type} : ∀ c : CJsonNode,
    Returns (cJsonDelete c : HeapM σ Unit) fun _ => True
  | .node _ child =>
    (returns_cJsonDeleteAll child).bind fun _ _ => (returns_freeString _).bind fun _ _ =>
      (returns_freeString _).bind fun _ _ => returns_release _

theorem returns_cJsonDeleteAll {σ : Type} : ∀ cs : List CJsonNode,
    Returns (cJsonDeleteAll cs : HeapM σ Unit) fun _ => True
  | [] => Returns.pure trivial
  | c :: cs => (returns_cJsonDelete c).bind fun _ _ => returns_cJsonDeleteAll cs

end

/-- Every text of a value is read as the value. If a NUL is required, then what is behind the text and
some blanks must be one; otherwise anything may be there that does not go on with a number. -/
theorem parseWithOpts_text {σ : Type} {env : CJsonEnv} (hmalloc : ∀ n, env.mallocOk n = true)
    {v : CJson} {toks : List (List UInt8)} {gap tail text : List UInt8} {b : UInt8}
    (hname : v.string = none) (htoks : ValueTokens env.numberInt v toks) (hgap : Blank gap)
    (hb : b = 0 ∨ 32 < b) (htext : Spaced Blank toks (gap ++ b :: tail) text)
    (hends : EndsNumber (gap ++ b :: tail)) (requireNullTerminated : Bool) :
    Returns (cJsonParseWithOpts env requireNullTerminated text : HeapM σ _) fun r =>
      (r = none ↔ requireNullTerminated = true ∧ b ≠ 0) ∧ ∀ c rest, r = some (c, rest) →
        c.json.content = v.content ∧
          rest = if requireNullTerminated then b :: tail else gap ++ b :: tail := by
  refine (returns_cJsonNewItem hmalloc).bind fun item hitem => ?_
  obtain ⟨block, rfl⟩ := hitem
  have hstring : (none : Option HeapString).map HeapString.bytes = v.string := hname.symm
  obtain ⟨value, hskip, hparse⟩ := returns_parseValue_of (σ := σ) hmalloc v toks
    (2 * text.length + 1) ⟨block, none, .cFalse, 0, none⟩ _ text htoks hstring htext hends
    (Nat.lt_succ_self _)
  refine Returns.bind_lift hskip (hparse.bind fun r hr => ?_)
  obtain ⟨c, rest⟩ := r
  obtain ⟨hcontent, hrest⟩ := hr
  subst hrest
  cases requireNullTerminated with
  | false =>
    refine Returns.pure ⟨iff_of_false (Option.some_ne_none _) fun h => Bool.noConfusion h.1, ?_⟩
    rintro c' rest' ⟨⟩
    exact ⟨hcontent, rfl⟩
  | true =>
    have hskip' : skip (gap ++ b :: tail) = .ok (b :: tail) := by
      rw [skip_of_blank hgap, skip_stays hb]
    refine Returns.bind_lift hskip' ?_
    by_cases hzero : b = 0
    · have hhead : (b :: tail).head? = some 0 := congrArg some hzero
      rw [if_pos hhead]
      refine Returns.pure ⟨iff_of_false (Option.some_ne_none _) fun h => h.2 hzero, ?_⟩
      rintro c' rest' ⟨⟩
      exact ⟨hcontent, rfl⟩
    · have hhead : ¬ (b :: tail).head? = some 0 := fun h => hzero (Option.some.inj h)
      rw [if_neg hhead]
      refine (returns_cJsonDelete c).bind fun _ _ => Returns.pure ⟨iff_of_true rfl ⟨rfl, hzero⟩, ?_⟩
      rintro c' rest' ⟨⟩

end WLink.Misc
