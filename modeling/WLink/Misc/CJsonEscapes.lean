import WLink.Misc.CJsonOwnership
import WLink.Misc.CJsonText

/-!
# What reading loses

The parser takes a backslash in a string for an escape, and what it stores for it has fewer bytes
`\` and `u` than the escape. So of the bytes `\` and `u` of a text at most as many come to stand in
the tree (`escapes`), and no string in the tree has quotes or backslashes if none of them is lost
(`yields_cJsonParse`). The words `null` and `true` count as one each, for the `u` in them.
-/

namespace WLink.Misc

open WLink.Lib Httpd CString Exec
open CJson (CleanBytes CleanAll contentAll)
open CJsonDoc (Named PlainAll jsonAll nameOf valueText allText moreText itemText)

/-! ## Counting -/

/-- The number of backslashes and letters `u`. -/
def escapes (s : List UInt8) : ℕ := s.countP fun b => b = 92 ∨ b = 117

section

variable {b : UInt8} {s t : List UInt8}

@[simp] theorem escapes_append (s t : List UInt8) : escapes (s ++ t) = escapes s + escapes t :=
  List.countP_append

theorem escapes_cons (b : UInt8) (s : List UInt8) : escapes (b :: s) = escapes [b] + escapes s :=
  escapes_append [b] s

theorem escapes_singleton_le (b : UInt8) : escapes [b] ≤ 1 := List.countP_le_length

theorem escapes_cons_of_not (h : b ≠ 92) (h' : b ≠ 117) (s : List UInt8) :
    escapes (b :: s) = escapes s := by
  refine List.countP_cons_of_neg ?_
  rw [decide_eq_true_iff]
  rintro (rfl | rfl)
  · exact h rfl
  · exact h' rfl

theorem escapes_le_of_suffix (h : s <:+ t) : escapes s ≤ escapes t := h.sublist.countP_le

theorem escapes_le_of_prefix (h : s <+: t) : escapes s ≤ escapes t := h.sublist.countP_le

theorem escapes_eq_zero (h : ∀ b ∈ s, b ≠ 92 ∧ b ≠ 117) : escapes s = 0 := by
  refine List.countP_eq_zero.mpr fun b hb => ?_
  rw [decide_eq_true_iff]
  rintro (rfl | rfl)
  · exact (h _ hb).1 rfl
  · exact (h _ hb).2 rfl

end

namespace CJson

mutual

def escapes : CJson → ℕ
  | .item _ type _ valuestring child =>
    match type with
    | .null | .cTrue => 1
    | .string => Misc.escapes valuestring
    | .array | .object => escapesAll child
    | _ => 0

def escapesAll : List CJson → ℕ
  | [] => 0
  | c :: cs => Misc.escapes (c.string.getD []) + escapes c + escapesAll cs

end

mutual

/-- Members that are not used do not count. -/
theorem escapes_content : ∀ c : CJson, c.content.escapes = c.escapes
  | .item string type valueint valuestring child => by
    cases type with
    | array => exact escapesAll_contentAll child
    | object => exact escapesAll_contentAll child
    | _ => rfl

theorem escapesAll_contentAll : ∀ cs : List CJson, escapesAll (contentAll cs) = escapesAll cs
  | [] => rfl
  | .item string type valueint valuestring child :: cs => by
    show Misc.escapes (string.getD []) + (content (.item string type valueint valuestring
      child)).escapes + escapesAll (contentAll cs) = _
    rw [escapes_content, escapesAll_contentAll]
    rfl

end

theorem string_content (c : CJson) : c.content.string = c.string := by
  cases c
  rfl

mutual

theorem clean_content : ∀ c : CJson, c.content.Clean ↔ c.Clean
  | .item string type valueint valuestring child => by
    cases type with
    | array => exact cleanAll_contentAll child
    | object => exact cleanAll_contentAll child
    | _ => exact Iff.rfl

theorem cleanAll_contentAll : ∀ cs : List CJson, CleanAll (contentAll cs) ↔ CleanAll cs
  | [] => Iff.rfl
  | .item string type valueint valuestring child :: cs => by
    show CleanBytes (string.getD []) ∧ (content (.item string type valueint valuestring
      child)).Clean ∧ CleanAll (contentAll cs) ↔ _
    rw [clean_content, cleanAll_contentAll]
    rfl

end

end CJson

/-! ## The text of a tree -/

theorem escapes_sprintfD (z : ℤ) : escapes (sprintfD z) = 0 := by
  refine escapes_eq_zero fun b hb => ?_
  rcases sprintfD_bytes z b hb with rfl | ⟨-, h57⟩
  · decide
  · constructor
    · rintro rfl
      exact absurd h57 (by decide)
    · rintro rfl
      exact absurd h57 (by decide)

theorem escapes_line (depth : ℕ) (s : List UInt8) :
    escapes (10 :: (List.replicate depth 9 ++ s)) = escapes s := by
  have htabs : escapes (List.replicate depth 9) = 0 := by
    refine escapes_eq_zero fun b hb => ?_
    rw [List.eq_of_mem_replicate hb]
    decide
  rw [escapes_cons_of_not (by decide) (by decide), escapes_append, htabs, Nat.zero_add]

theorem escapes_nameOf (depth : ℕ) (string : Option (List UInt8)) :
    escapes (nameOf depth string) = escapes (string.getD []) := by
  cases string with
  | none => rfl
  | some name =>
    show escapes (10 :: (List.replicate depth 9 ++ 34 :: (name ++ [34, 58, 9]))) = escapes name
    rw [escapes_line, escapes_cons_of_not (by decide) (by decide), escapes_append]
    rfl

mutual

/-- The text of a tree has as many of these bytes as its words and its strings. -/
theorem escapes_valueText : ∀ (c : CJsonDoc) (depth : ℕ), c.Plain →
    escapes (valueText depth c) = c.json.escapes
  | .item string type valueint valuedouble valuestring child, depth => by
    intro h
    unfold CJsonDoc.Plain at h
    unfold valueText
    cases type with
    | cFalse => rfl
    | cTrue => rfl
    | null => rfl
    | number =>
      obtain ⟨-, -, rfl⟩ := h
      exact escapes_sprintfD valueint
    | string =>
      show escapes (34 :: (valuestring ++ [34])) = escapes valuestring
      rw [escapes_cons_of_not (by decide) (by decide), escapes_append]
      rfl
    | array =>
      show escapes (91 :: (allText (depth + 1) child ++ [93])) = CJson.escapesAll (jsonAll child)
      rw [escapes_cons_of_not (by decide) (by decide), escapes_append,
        escapes_allText child (depth + 1) h]
      rfl
    | object =>
      show escapes (123 :: (allText (depth + 1) child ++ closeText depth)) =
        CJson.escapesAll (jsonAll child)
      rw [escapes_cons_of_not (by decide) (by decide), escapes_append,
        escapes_allText child (depth + 1) h]
      unfold closeText
      rw [escapes_line]
      rfl

theorem escapes_allText {named : Bool} : ∀ (cs : List CJsonDoc) (depth : ℕ), PlainAll named cs →
    escapes (allText depth cs) = CJson.escapesAll (jsonAll cs)
  | [], _ => fun _ => rfl
  | [c], depth => by
    rintro ⟨-, hplain, -⟩
    show escapes (nameOf depth c.string ++ valueText depth c ++ []) =
      escapes (c.json.string.getD []) + c.json.escapes + 0
    rw [List.append_nil, escapes_append, escapes_nameOf, escapes_valueText c depth hplain]
    cases c
    rfl
  | c :: d :: ds, depth => by
    rintro ⟨-, hplain, hrest⟩
    show escapes (nameOf depth c.string ++ valueText depth c ++ 44 :: allText depth (d :: ds)) =
      escapes (c.json.string.getD []) + c.json.escapes + CJson.escapesAll (jsonAll (d :: ds))
    rw [escapes_append, escapes_append, escapes_nameOf, escapes_valueText c depth hplain,
      escapes_cons_of_not (by decide) (by decide), escapes_allText (d :: ds) depth hrest]
    cases c
    rfl

end

/-! ## What is read -/

/-- Between two places in a text something with `n` of the bytes is read, and it is clean if they
are all that are there. -/
def Counts (n : ℕ) (clean : Prop) (value rest : List UInt8) : Prop :=
  n + escapes rest ≤ escapes value ∧ (n + escapes rest = escapes value → clean)

namespace Counts

variable {n m : ℕ} {clean clean' : Prop} {value mid rest : List UInt8}

theorem trans (h : Counts n clean value mid) (h' : Counts m clean' mid rest) :
    Counts (n + m) (clean ∧ clean') value rest := by
  obtain ⟨hle, hclean⟩ := h
  obtain ⟨hle', hclean'⟩ := h'
  exact ⟨by omega, fun heq => ⟨hclean (by omega), hclean' (by omega)⟩⟩

theorem imp (h : Counts n clean value rest) (himp : clean → clean') :
    Counts n clean' value rest := ⟨h.1, fun heq => himp (h.2 heq)⟩

/-- Nothing is read out of what is passed over. -/
theorem of_suffix (h : rest <:+ value) : Counts 0 True value rest :=
  ⟨by rw [Nat.zero_add]; exact escapes_le_of_suffix h, fun _ => trivial⟩

theorem skip_before (h : Counts n clean mid rest) (hvalue : mid <:+ value) :
    Counts n clean value rest := by
  have htrans := (of_suffix hvalue).trans h
  rw [Nat.zero_add] at htrans
  exact htrans.imp And.right

theorem skip_after (h : Counts n clean value mid) (hrest : rest <:+ mid) :
    Counts n clean value rest := (h.trans (of_suffix hrest)).imp And.left

end Counts

/-! ## Strings -/

/-- The bytes of a character that takes more than one have the highest bit. -/
theorem ofNat_of_testBit {n : ℕ} (h : n.testBit 7 = true) :
    UInt8.ofNat n ≠ 92 ∧ UInt8.ofNat n ≠ 117 := by
  have hbit : (n % 2 ^ 8).testBit 7 = true := by
    rw [Nat.testBit_mod_two_pow, h]
    rfl
  constructor
  · intro hb
    have hn : n % 2 ^ 8 = 92 := congrArg UInt8.toNat hb
    rw [hn] at hbit
    exact absurd hbit (by decide)
  · intro hb
    have hn : n % 2 ^ 8 = 117 := congrArg UInt8.toNat hb
    rw [hn] at hbit
    exact absurd hbit (by decide)

theorem utf8Tail_ne (uc : ℕ) : utf8Tail uc ≠ 92 ∧ utf8Tail uc ≠ 117 := by
  refine ofNat_of_testBit ?_
  rw [Nat.testBit_and, Nat.testBit_or, (by decide : Nat.testBit 0x80 7 = true), Bool.or_true]
  rfl

theorem utf8Head_ne {head : ℕ} (h : head.testBit 7 = true) (n : ℕ) :
    UInt8.ofNat (n ||| head) ≠ 92 ∧ UInt8.ofNat (n ||| head) ≠ 117 := by
  refine ofNat_of_testBit ?_
  rw [Nat.testBit_or, h, Bool.or_true]

theorem escapes_utf8_le (uc : ℕ) : escapes (utf8 uc) ≤ 1 := by
  have hnone : ∀ bs : List UInt8, (∀ b ∈ bs, b ≠ 92 ∧ b ≠ 117) → escapes bs ≤ 1 := by
    intro bs h
    rw [escapes_eq_zero h]
    exact Nat.zero_le 1
  unfold utf8
  split_ifs
  · exact escapes_singleton_le _
  · refine hnone _ ?_
    simp only [List.forall_mem_cons]
    exact ⟨utf8Head_ne (by decide) _, utf8Tail_ne _, List.forall_mem_nil _⟩
  · refine hnone _ ?_
    simp only [List.forall_mem_cons]
    exact ⟨utf8Head_ne (by decide) _, utf8Tail_ne _, utf8Tail_ne _, List.forall_mem_nil _⟩
  · refine hnone _ ?_
    simp only [List.forall_mem_cons]
    exact ⟨utf8Head_ne (by decide) _, utf8Tail_ne _, utf8Tail_ne _, utf8Tail_ne _,
      List.forall_mem_nil _⟩

theorem escapes_unescapeUnicode {cs : List UInt8} {r : List UInt8 × ℕ}
    (h : unescapeUnicode cs = .ok r) : escapes r.1 ≤ 1 := by
  have hnil : escapes ([] : List UInt8) ≤ 1 := Nat.zero_le 1
  obtain ⟨uc, -, h⟩ := bind_eq_ok.mp h
  split_ifs at h
  · cases h
    exact hnil
  · unfold unescapeSurrogate at h
    split at h
    · cases h
    · split_ifs at h
      · cases h
        exact hnil
    · split_ifs at h
      · cases h
        exact hnil
      · obtain ⟨uc2, -, rfl⟩ := map_eq_ok.mp h
        split_ifs
        · exact hnil
        · exact escapes_utf8_le _
  · cases h
    exact escapes_utf8_le uc

/-- What is stored for an escape has no more of the bytes than the letter behind the backslash. -/
theorem escapes_unescapeByte {c : UInt8} {cs : List UInt8} {r : List UInt8 × ℕ}
    (h : unescapeByte c cs = .ok r) : escapes r.1 ≤ escapes [c] := by
  unfold unescapeByte at h
  split_ifs at h with hb hf hn hr ht hu
  · cases h
    exact Nat.zero_le _
  · cases h
    exact Nat.zero_le _
  · cases h
    exact Nat.zero_le _
  · cases h
    exact Nat.zero_le _
  · cases h
    exact Nat.zero_le _
  · subst hu
    exact escapes_unescapeUnicode h
  · cases h
    exact Nat.le_refl _

/-- The loop over a string. The induction is on the text; an escape loses at least the backslash. -/
theorem counts_storeString (k : ℕ) (str : List UInt8) : ∀ out ptr,
    storeString k str = .ok (out, ptr) → Counts (escapes out) (CleanBytes out) str ptr := by
  fun_induction storeString k str with
  | case1 => rintro out ptr ⟨⟩
  | case2 k c cs ih =>
    intro out ptr h
    exact (ih out ptr h).skip_before (List.suffix_cons c cs)
  | case3 c cs hend =>
    intro out ptr h
    cases h
    exact (Counts.of_suffix (List.suffix_refl _)).imp fun _ => CJson.cleanBytes_nil
  | case4 => rintro out ptr ⟨⟩
  | case5 d cs _ ih =>
    intro out ptr h
    obtain ⟨⟨stored, k⟩, hstored, h⟩ := bind_eq_ok.mp h
    obtain ⟨⟨out', ptr'⟩, hrest, h⟩ := bind_eq_ok.mp h
    cases h
    have hle := escapes_unescapeByte hstored
    have hcount := (ih k out' ptr hrest).1
    have htext : escapes (92 :: d :: cs) = 1 + (escapes [d] + escapes cs) := by
      rw [escapes_cons, escapes_cons d]
      rfl
    have hout : escapes (stored ++ out') = escapes stored + escapes out' := escapes_append _ _
    have hle' : escapes stored ≤ escapes [d] := hle
    refine ⟨?_, fun heq => ?_⟩
    · omega
    · omega
  | case6 c cs hend hslash ih =>
    intro out ptr h
    obtain ⟨⟨out', ptr'⟩, hrest, h⟩ := map_eq_ok.mp h
    obtain ⟨rfl, rfl⟩ := Prod.mk.inj h
    obtain ⟨hle, hclean⟩ := ih out' ptr' hrest
    show escapes (c :: out') + escapes ptr' ≤ escapes (c :: cs) ∧
      (escapes (c :: out') + escapes ptr' = escapes (c :: cs) → CleanBytes (c :: out'))
    rw [escapes_cons c out', escapes_cons c cs]
    refine ⟨by omega, fun heq => ?_⟩
    exact CJson.cleanBytes_cons.mpr ⟨⟨fun h => hend (Or.inl h), hslash⟩, hclean (by omega)⟩

theorem counts_stringContent {len : ℕ} {str bytes ptr : List UInt8}
    (h : stringContent len str = .ok (bytes, ptr)) :
    Counts (escapes bytes) (CleanBytes bytes) str ptr := by
  obtain ⟨⟨out, ptr'⟩, hrest, h⟩ := bind_eq_ok.mp h
  have hcounts := counts_storeString 0 str out ptr' hrest
  dsimp only at h
  split at h
  · cases h
  · have hstart : out.takeWhile (· ≠ 0) <+: out := List.takeWhile_prefix _
    have hbytes : Counts (escapes (out.takeWhile (· ≠ 0))) (CleanBytes (out.takeWhile (· ≠ 0)))
        str ptr' := by
      obtain ⟨hle, hclean⟩ := hcounts
      have hless := escapes_le_of_prefix hstart
      refine ⟨by omega, fun heq => ?_⟩
      have hall := hclean (by omega)
      exact ⟨fun hmem => hall.1 (hstart.subset hmem), fun hmem => hall.2 (hstart.subset hmem)⟩
    cases h
    split_ifs
    · exact hbytes.skip_after (List.tail_suffix _)
    · exact hbytes

section

variable {σ : Type} (env : CJsonEnv)

theorem counts_parseString (item : CJsonItem) (str : List UInt8) :
    Yields (parseString env item str : HeapM σ _) fun r => ∀ ptr, r.2 = some ptr →
      ∃ out, r.1 = { item with valuestring := some out, type := .string } ∧
        Counts (escapes out.bytes) (CleanBytes out.bytes) str ptr := by
  have hnone : ∀ item : CJsonItem, Yields (pure (item, none) : HeapM σ _)
      fun r : CJsonItem × Option (List UInt8) => ∀ ptr, r.2 = some ptr →
        ∃ out, r.1 = { item with valuestring := some out, type := .string } ∧
          Counts (escapes out.bytes) (CleanBytes out.bytes) str ptr :=
    fun item => Yields.pure fun ptr h => absurd h (Option.some_ne_none ptr).symm
  refine Yields.ite (fun _ => hnone item) fun _ => Yields.seq fun len => Yields.seq fun out => ?_
  cases out with
  | none => exact hnone item
  | some out =>
    refine Yields.bind (Yields.lift fun r h => counts_stringContent h) fun r hr => ?_
    refine Yields.pure fun ptr h => ⟨⟨out, r.1⟩, rfl, ?_⟩
    cases h
    exact hr.skip_before (List.tail_suffix str)

theorem yields_skip_suffix (value : List UInt8) :
    Yields (Exec.lift (skip value) : HeapM σ _) fun rest => rest <:+ value :=
  Yields.lift (passesOver_skip value).2

/-- The bytes of a name, if there is one. -/
def CJsonItem.name (item : CJsonItem) : List UInt8 :=
  (item.string.map HeapString.bytes).getD []

theorem counts_parseName (item : CJsonItem) (value : List UInt8) :
    Yields (parseName env item value : HeapM σ _) fun r => ∀ rest, r.2 = some rest →
      Counts (escapes r.1.name) (CleanBytes r.1.name) value rest := by
  refine (yields_skip_suffix value).bind fun value' hskip => ?_
  refine (counts_parseString env item value').bind fun r hr => ?_
  obtain ⟨item', ptr⟩ := r
  cases ptr with
  | none => exact Yields.pure fun rest h => absurd h (Option.some_ne_none rest).symm
  | some ptr =>
    obtain ⟨out, rfl, hcounts⟩ := hr ptr rfl
    refine (yields_skip_suffix ptr).bind fun rest hrest => Yields.pure fun rest' h => ?_
    dsimp only at h
    split at h
    · cases h
      exact (hcounts.skip_before hskip).skip_after ((List.tail_suffix rest).trans hrest)
    · cases h

theorem counts_parseStart (inObject : Bool) (b : ℕ) (value : List UInt8) :
    Yields (parseStart env inObject (freshItem b) value : HeapM σ _) fun r =>
      ∀ rest, r.2 = some rest → Counts (escapes r.1.name) (CleanBytes r.1.name) value rest := by
  refine Yields.ite (fun _ => counts_parseName env _ value) fun _ => Yields.pure fun rest h => ?_
  cases h
  exact (Counts.of_suffix (List.suffix_refl value)).imp fun _ => CJson.cleanBytes_nil

/-! ## Values -/

theorem startsFrom_eq_true {lit s : List UInt8} (h : startsFrom lit s = .ok true) :
    s = lit ++ s.drop lit.length := by
  induction lit generalizing s with
  | nil => rfl
  | cons c cs ih =>
    cases s with
    | nil => cases h
    | cons b bs =>
      have h' : (if b = c then startsFrom cs bs else .ok false) = .ok true := h
      split_ifs at h' with hb
      · subst hb
        exact congrArg (b :: ·) (ih h')
      · exact absurd (Except.ok.inj h') Bool.false_ne_true

theorem counts_word {lit value : List UInt8} (h : startsFrom lit value = .ok true) :
    Counts (escapes lit) True value (value.drop lit.length) := by
  refine ⟨?_, fun _ => trivial⟩
  conv_rhs => rw [startsFrom_eq_true h]
  rw [escapes_append]

theorem byteKind_ne (c : UInt8) : byteKind c ≠ .null ∧ byteKind c ≠ .cTrue := by
  unfold byteKind
  split_ifs <;> decide

/-- A value is one of the words `null` and `true` only if it begins with it. -/
theorem startsFrom_of_kind {value : List UInt8} {kind : ValueKind}
    (h : valueKind value = .ok kind) :
    (kind = .null → startsFrom (ascii "null") value = .ok true) ∧
      (kind = .cTrue → startsFrom (ascii "true") value = .ok true) := by
  obtain ⟨isNull, hnull, h⟩ := bind_eq_ok.mp h
  split_ifs at h with h₁
  · subst h₁
    cases h
    exact ⟨fun _ => hnull, fun h => ValueKind.noConfusion h⟩
  obtain ⟨isFalse, hfalse, h⟩ := bind_eq_ok.mp h
  split_ifs at h with h₂
  · cases h
    exact ⟨fun h => ValueKind.noConfusion h, fun h => ValueKind.noConfusion h⟩
  obtain ⟨isTrue, htrue, h⟩ := bind_eq_ok.mp h
  split_ifs at h with h₃
  · subst h₃
    cases h
    exact ⟨fun h => ValueKind.noConfusion h, fun _ => htrue⟩
  obtain ⟨c, -, h⟩ := bind_eq_ok.mp h
  cases h
  exact ⟨fun h => absurd h (byteKind_ne c).1, fun h => absurd h (byteKind_ne c).2⟩

/-- What `parse_value` has read, if it has not failed: a value with the name of the item. -/
def ValueCounts (item : CJsonItem) (value : List UInt8) (r : CJsonNode × Option (List UInt8)) :
    Prop :=
  ∀ rest, r.2 = some rest → r.1.json.string = item.string.map HeapString.bytes ∧
    Counts r.1.json.escapes r.1.json.Clean value rest

/-- What is read of the children of an array or of an object. -/
def ChildrenCount (value : List UInt8) (r : List CJsonNode × Option (List UInt8)) : Prop :=
  ∀ rest, r.2 = some rest → Counts (CJson.escapesAll (CJsonNode.jsonAll r.1))
    (CleanAll (CJsonNode.jsonAll r.1)) value rest

theorem ValueCounts.failed (item : CJsonItem) (value : List UInt8) (c : CJsonNode) :
    ValueCounts item value (c, none) := fun rest h => absurd h (Option.some_ne_none rest).symm

theorem ChildrenCount.failed (value : List UInt8) (cs : List CJsonNode) :
    ChildrenCount value (cs, none) := fun rest h => absurd h (Option.some_ne_none rest).symm

/-- A value that is read out of nothing but its word. -/
theorem ValueCounts.word {item : CJsonItem} {value rest : List UInt8} {type : CJsonType}
    {valueint : ℤ} {n : ℕ} (hcounts : Counts n True value rest)
    (hn : (CJson.item none type 0 [] []).escapes = n)
    (hclean : (CJson.item none type 0 [] []).Clean) (htype : type ≠ .string) :
    ValueCounts item value (.node { item with type, valueint } [], some rest) := by
  rintro rest ⟨⟩
  refine ⟨rfl, ?_⟩
  subst hn
  cases type with
  | string => exact absurd rfl htype
  | _ => exact hcounts.imp fun _ => hclean

/-- An array or an object, up to and with the bracket behind it. -/
theorem counts_parseBracket {value value' : List UInt8} (close : UInt8) {type : CJsonType}
    {x : HeapM σ (List CJsonNode × Option (List UInt8))} (item : CJsonItem)
    (htype : type = .array ∨ type = .object) (hvalue : value' <:+ value)
    (hx : Yields x (ChildrenCount value')) :
    Yields (if value'.head? = some close then pure (.node { item with type } [], some value'.tail)
      else x >>= fun r => pure (.node { item with type } r.1, r.2) :
        HeapM σ (CJsonNode × Option (List UInt8))) (ValueCounts item value) := by
  have hchildren : ∀ child : List CJsonNode, ∀ rest,
      Counts (CJson.escapesAll (CJsonNode.jsonAll child)) (CleanAll (CJsonNode.jsonAll child))
        value' rest → ValueCounts item value (.node { item with type } child, some rest) := by
    rintro child rest hcounts rest' ⟨⟩
    refine ⟨rfl, ?_⟩
    rcases htype with rfl | rfl
    · exact hcounts.skip_before hvalue
    · exact hcounts.skip_before hvalue
  refine Yields.ite (fun _ => Yields.pure (hchildren [] value'.tail ?_)) fun _ =>
    hx.bind fun r hr => Yields.pure ?_
  · exact (Counts.of_suffix (List.tail_suffix value')).imp fun _ => trivial
  · obtain ⟨child, rest⟩ := r
    cases rest with
    | none => exact ValueCounts.failed _ _ _
    | some rest => exact hchildren child rest (hr rest rfl)

/-- A value, if what is read of children is counted. -/
theorem counts_parseValue_succ {fuel : ℕ} (hchildren : ∀ inObject value,
      Yields (parseChildren env fuel inObject value : HeapM σ _) (ChildrenCount value))
    (item : CJsonItem) (value : List UInt8) :
    Yields (parseValue env (fuel + 1) item value : HeapM σ _) (ValueCounts item value) := by
  refine Yields.bind (P := fun kind => valueKind value = .ok kind) (Yields.lift fun _ h => h)
    fun kind hkind => ?_
  cases kind with
  | null =>
    exact Yields.pure (ValueCounts.word (counts_word ((startsFrom_of_kind hkind).1 rfl)) rfl trivial
      CJsonType.noConfusion)
  | cFalse =>
    exact Yields.pure (ValueCounts.word (Counts.of_suffix (List.drop_suffix 5 value)) rfl trivial
      CJsonType.noConfusion)
  | cTrue =>
    exact Yields.pure (ValueCounts.word (counts_word ((startsFrom_of_kind hkind).2 rfl)) rfl trivial
      CJsonType.noConfusion)
  | malformed => exact Yields.pure (ValueCounts.failed _ _ _)
  | string =>
    refine (counts_parseString env item value).bind fun r hr => Yields.pure ?_
    intro rest hrest
    obtain ⟨out, hitem, hcounts⟩ := hr rest hrest
    dsimp only
    rw [hitem]
    exact ⟨rfl, hcounts⟩
  | number =>
    refine Yields.bind (Yields.lift (P := fun r => ∃ z, r.1 = { item with
      valueint := z, type := .number } ∧ r.2 <:+ value) ?_) fun r hr => Yields.pure ?_
    · intro r h
      obtain ⟨rest, hrest, h⟩ := bind_eq_ok.mp h
      cases h
      exact ⟨_, rfl, (passesOver_skipNumber value).2 rest hrest⟩
    · obtain ⟨item', rest⟩ := r
      obtain ⟨z, hitem, hrest⟩ := hr
      dsimp only at hitem ⊢
      rw [hitem]
      exact ValueCounts.word (Counts.of_suffix hrest) rfl trivial CJsonType.noConfusion
  | array =>
    refine (yields_skip_suffix value.tail).bind fun value' hskip => ?_
    exact counts_parseBracket 93 item (Or.inl rfl) (hskip.trans (List.tail_suffix value))
      (hchildren false value')
  | object =>
    refine (yields_skip_suffix value.tail).bind fun value' hskip => ?_
    exact counts_parseBracket 125 item (Or.inr rfl) (hskip.trans (List.tail_suffix value))
      (hchildren true value')

/-- The children, if a value is counted, and the children behind it. -/
theorem counts_parseChildren_succ {fuel : ℕ} (hvalue : ∀ item value,
      Yields (parseValue env fuel item value : HeapM σ _) (ValueCounts item value))
    (hchildren : ∀ inObject value,
      Yields (parseChildren env fuel inObject value : HeapM σ _) (ChildrenCount value))
    (inObject : Bool) (value : List UInt8) :
    Yields (parseChildren env (fuel + 1) inObject value : HeapM σ _) (ChildrenCount value) := by
  refine (yields_cJsonNewItem env).bind fun item hitem => ?_
  cases item with
  | none => exact Yields.pure (ChildrenCount.failed value _)
  | some item =>
    obtain ⟨b, rfl⟩ := hitem item rfl
    refine (counts_parseStart env inObject b value).bind fun r hr => ?_
    obtain ⟨item, start⟩ := r
    cases start with
    | none => exact Yields.pure (ChildrenCount.failed value _)
    | some start =>
      have hname := hr start rfl
      refine (yields_skip_suffix start).bind fun start' hskip => ?_
      refine (hvalue item start').bind fun r hr => ?_
      obtain ⟨child, rest⟩ := r
      cases rest with
      | none => exact Yields.pure (ChildrenCount.failed value _)
      | some rest =>
        obtain ⟨hstring, hcounts⟩ := hr rest rfl
        have hchild : Counts (escapes (child.json.string.getD []) + child.json.escapes)
            (CleanBytes (child.json.string.getD []) ∧ child.json.Clean) value rest := by
          rw [hstring]
          exact hname.trans (hcounts.skip_before hskip)
        refine (yields_skip_suffix rest).bind fun rest' hskip' => ?_
        have htail : rest'.tail <:+ rest := (List.tail_suffix rest').trans hskip'
        refine Yields.ite (fun _ => ?_) fun _ => Yields.ite (fun _ => ?_) fun _ => ?_
        · refine (hchildren inObject rest'.tail).bind fun r hr => Yields.pure ?_
          intro after hafter
          exact ((hchild.skip_after htail).trans (hr after hafter)).imp fun h =>
            ⟨h.1.1, h.1.2, h.2⟩
        · refine Yields.pure ?_
          rintro after ⟨⟩
          exact (hchild.skip_after htail).imp fun h => ⟨h.1, h.2, trivial⟩
        · exact Yields.pure (ChildrenCount.failed value _)

/-- The induction is on the bound of the depth. -/
theorem counts_parse (fuel : ℕ) :
    (∀ item value, Yields (parseValue env fuel item value : HeapM σ _) (ValueCounts item value)) ∧
      ∀ inObject value, Yields (parseChildren env fuel inObject value : HeapM σ _)
        (ChildrenCount value) := by
  induction fuel with
  | zero =>
    constructor
    · rintro item value s r s' ⟨⟩
    · rintro inObject value s r s' ⟨⟩
  | succ fuel ih =>
    exact ⟨counts_parseValue_succ env ih.2, counts_parseChildren_succ env ih.1 ih.2⟩

/-- A tree has no name at the root. If it has all the backslashes and `u` of its text, then it has
no quotes and no backslashes in its strings and names. -/
theorem yields_cJsonParse (value : List UInt8) :
    Yields (cJsonParse env value : HeapM σ _) fun r => ∀ c, r = some c →
      c.json.string = none ∧ (c.json.escapes = escapes value → c.json.Clean) := by
  refine (yields_cJsonNewItem env).bind fun item hitem => ?_
  cases item with
  | none => exact Yields.pure fun c h => absurd h (Option.some_ne_none c).symm
  | some item =>
    obtain ⟨b, rfl⟩ := hitem item rfl
    refine (yields_skip_suffix value).bind fun value' hskip => ?_
    refine ((counts_parse env _).1 _ value').bind fun r hr => ?_
    obtain ⟨c, rest⟩ := r
    cases rest with
    | none =>
      exact Yields.seq fun _ => Yields.pure fun c h => absurd h (Option.some_ne_none c).symm
    | some rest =>
      refine Yields.pure ?_
      rintro c ⟨⟩
      obtain ⟨hstring, hcounts⟩ := hr rest rfl
      refine ⟨hstring, fun heq => ?_⟩
      have hwhole : Counts c.json.escapes c.json.Clean value rest := hcounts.skip_before hskip
      have hle := hwhole.1
      exact hwhole.2 (by omega)

end

end WLink.Misc
