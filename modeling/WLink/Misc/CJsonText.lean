import WLink.Misc.CJsonPrint

/-!
# The text of a JSON tree

What `cJSON_Print_To_Buffer` writes when there is place for it: `CJsonDoc.valueText` and, with the
name, `CJsonDoc.itemText`. An object at the root needs two bytes more than its text, everything else
one (`printItem_fits`), and a NUL is left behind a word, a number and an object, but not behind an
array and a string (`CJsonDoc.mark`).
-/

namespace WLink.Misc

open WLink.Lib Httpd

/-! ## Trees -/

namespace CJson

mutual

/-- A tree without what is in the members that its type does not use. -/
def content : CJson → CJson
  | .item string type valueint valuestring child =>
    .item string type (if type = .number then valueint else 0)
      (if type = .string then valuestring else [])
      (if type = .array ∨ type = .object then contentAll child else [])

def contentAll : List CJson → List CJson
  | [] => []
  | c :: cs => c.content :: contentAll cs

end

/-- The bytes are no quotes and no backslashes. -/
def CleanBytes (str : List UInt8) : Prop := 34 ∉ str ∧ 92 ∉ str

instance (str : List UInt8) : Decidable (CleanBytes str) := inferInstanceAs (Decidable (_ ∧ _))

theorem cleanBytes_nil : CleanBytes [] := ⟨List.not_mem_nil, List.not_mem_nil⟩

theorem cleanBytes_cons {c : UInt8} {cs : List UInt8} :
    CleanBytes (c :: cs) ↔ (c ≠ 34 ∧ c ≠ 92) ∧ CleanBytes cs := by
  unfold CleanBytes
  rw [List.mem_cons, List.mem_cons, not_or, not_or, and_and_and_comm]
  exact and_congr_left fun _ => and_congr ne_comm ne_comm

mutual

/-- No string in the tree and no name of a child has quotes or backslashes. -/
def Clean : CJson → Prop
  | .item _ type _ valuestring child =>
    match type with
    | .string => CleanBytes valuestring
    | .array | .object => CleanAll child
    | _ => True

def CleanAll : List CJson → Prop
  | [] => True
  | c :: cs => CleanBytes (c.string.getD []) ∧ Clean c ∧ CleanAll cs

end

end CJson

namespace CJsonDoc

def string : CJsonDoc → Option (List UInt8)
  | item s _ _ _ _ _ => s

def type : CJsonDoc → CJsonType
  | item _ t _ _ _ _ => t

mutual

/-- The tree, as the parser makes one: without the doubles. -/
def json : CJsonDoc → CJson
  | .item string type valueint _ valuestring child =>
    .item string type valueint valuestring (jsonAll child)

def jsonAll : List CJsonDoc → List CJson
  | [] => []
  | c :: cs => c.json :: jsonAll cs

end

/-- The children of an object have names, those of an array do not. -/
def Named (named : Bool) (string : Option (List UInt8)) : Prop :=
  match named, string with
  | true, some name => 0 ∉ name
  | false, none => True
  | _, _ => False

mutual

/-- The numbers of a tree are integers of 32 bits, and its strings are C strings. -/
def Plain : CJsonDoc → Prop
  | .item _ type valueint valuedouble valuestring child =>
    match type with
    | .number => -2 ^ 31 ≤ valueint ∧ valueint < 2 ^ 31 ∧ valuedouble = none
    | .string => 0 ∉ valuestring
    | .array => PlainAll false child
    | .object => PlainAll true child
    | _ => True

def PlainAll (named : Bool) : List CJsonDoc → Prop
  | [] => True
  | c :: cs => Named named c.string ∧ Plain c ∧ PlainAll named cs

end

/-! ## Texts -/

/-- The name, if there is one. -/
def nameOf (depth : ℕ) (string : Option (List UInt8)) : List UInt8 :=
  string.elim [] (nameText depth)

mutual

def valueText : ℕ → CJsonDoc → List UInt8
  | depth, .item _ type valueint valuedouble valuestring child =>
    match type with
    | .array => 91 :: (allText (depth + 1) child ++ [93])
    | .object => 123 :: (allText (depth + 1) child ++ closeText depth)
    | .cFalse => ascii "false"
    | .cTrue => ascii "true"
    | .null => ascii "null"
    | .number => numberText valueint valuedouble
    | .string => 34 :: (valuestring ++ [34])

/-- The items of a list. -/
def allText : ℕ → List CJsonDoc → List UInt8
  | _, [] => []
  | depth, c :: cs => nameOf depth c.string ++ valueText depth c ++ moreText depth cs

/-- The items behind one. -/
def moreText : ℕ → List CJsonDoc → List UInt8
  | _, [] => []
  | depth, c :: cs => 44 :: (nameOf depth c.string ++ valueText depth c ++ moreText depth cs)

end

/-- The text of an item with its name. -/
def itemText (depth : ℕ) (c : CJsonDoc) : List UInt8 := nameOf depth c.string ++ valueText depth c

/-- What is left behind the text of an item. -/
def mark (c : CJsonDoc) : Option UInt8 :=
  if c.type = .array ∨ c.type = .string then none else some 0

end CJsonDoc

/-! ## Printing with place enough -/

open CJsonDoc

section

variable {bufSize : ℕ} {t : List UInt8} {mark : Option UInt8}

theorem strcpyOut_of (str t : List UInt8) (mark : Option UInt8) :
    strcpyOut str (.of t mark) = .of (t ++ str) (some 0) :=
  Output.poke_puts_of 0 str t mark

theorem printName_fits {depth : ℕ} {string : Option (List UInt8)}
    (h : t.length + (nameOf depth string).length ≤ bufSize) :
    ∃ mark', printName bufSize depth string (.of t mark) =
      (true, .of (t ++ nameOf depth string) mark') := by
  cases string with
  | none => exact ⟨mark, by rw [nameOf, Option.elim_none, List.append_nil]; rfl⟩
  | some name =>
    have hlength : (nameOf depth (some name)).length = depth + name.length + 5 :=
      length_nameText depth name
    have hroom : ¬ bufSize ≤ (Output.of t mark).pos + name.length + depth + 4 := by
      rw [Output.pos_of]
      omega
    refine ⟨none, ?_⟩
    unfold printName
    dsimp only
    rw [if_neg hroom, Output.puts_of (by exact List.cons_ne_nil _ _)]
    rfl

theorem printWord_fits {word : List UInt8} (h : t.length + word.length < bufSize) :
    printWord bufSize word (.of t mark) = (true, .of (t ++ word) (some 0)) := by
  unfold printWord
  rw [Output.pos_of, if_neg (Nat.not_le_of_lt h), strcpyOut_of]

theorem printNumber_fits {text : List UInt8} (h : t.length + text.length < bufSize) :
    printNumber bufSize text (.of t mark) = (true, .of (t ++ text) (some 0)) := by
  unfold printNumber
  dsimp only
  rw [Output.pos_of, if_neg (Nat.not_le_of_lt h), strcpyOut_of]

theorem printString_fits {str : List UInt8} (h : t.length + str.length + 2 < bufSize) :
    printString bufSize str (.of t mark) = (true, .of (t ++ 34 :: (str ++ [34])) none) := by
  unfold printString
  rw [Output.pos_of, if_neg (Nat.not_le_of_lt h), Output.put_of, strcpyOut_of, Output.put_of]
  simp only [List.append_assoc, List.cons_append, List.nil_append]

theorem printAll_last (depth : ℕ) (c : CJsonDoc) (o : Output UInt8) :
    printAll bufSize depth [c] o = (printItem bufSize depth c o).2 := by
  unfold printAll
  exact if_pos (Or.inr rfl)

theorem printAll_more {depth : ℕ} {c d : CJsonDoc} {ds : List CJsonDoc} {o : Output UInt8}
    (hok : (printItem bufSize depth c o).1 = true)
    (hroom : (printItem bufSize depth c o).2.pos + 1 < bufSize) :
    printAll bufSize depth (c :: d :: ds) o =
      printAll bufSize depth (d :: ds) ((printItem bufSize depth c o).2.put 44) := by
  have hgoes : ¬ ((printItem bufSize depth c o).1 = false ∨ (d :: ds).isEmpty = true) := by
    rintro (h | h)
    · exact Bool.noConfusion (hok.symm.trans h)
    · exact Bool.noConfusion h
  conv_lhs => unfold printAll
  dsimp only
  rw [if_neg hgoes, if_neg (Nat.not_le_of_lt hroom)]

mutual

/-- An item finds its place, with a byte behind it, and with two behind an object. -/
theorem printItem_fits (bufSize : ℕ) : ∀ (c : CJsonDoc) (depth : ℕ) (t : List UInt8)
    (mark : Option UInt8), t.length + (itemText depth c).length < bufSize →
      (c.type = .object → t.length + (itemText depth c).length + 1 < bufSize) →
      printItem bufSize depth c (.of t mark) = (true, .of (t ++ itemText depth c) c.mark)
  | .item string type valueint valuedouble valuestring child, depth, t, mark => by
    intro h hobject
    unfold itemText at h hobject ⊢
    rw [List.length_append] at h hobject
    have hfits : t.length + (nameOf depth string).length ≤ bufSize := by
      have h' : t.length + ((nameOf depth string).length + _) < bufSize := h
      omega
    obtain ⟨mark', hname⟩ : ∃ mark', printName bufSize depth string (.of t mark) =
      (true, .of (t ++ nameOf depth string) mark') := printName_fits hfits
    rw [← List.append_assoc]
    show printItem _ _ _ _ = (true, .of (t ++ nameOf depth string ++ _) _)
    have hlength : t.length + (nameOf depth string).length = (t ++ nameOf depth string).length :=
      List.length_append.symm
    simp only [CJsonDoc.string, ← Nat.add_assoc, hlength] at h hobject
    generalize t ++ nameOf depth string = t' at *
    unfold printItem
    rw [hname]
    dsimp only
    rw [if_neg Bool.noConfusion]
    cases type with
    | cFalse => exact printWord_fits h
    | cTrue => exact printWord_fits h
    | null => exact printWord_fits h
    | number => exact printNumber_fits h
    | string =>
      refine printString_fits ?_
      simp only [valueText, List.length_cons, List.length_append, List.length_nil] at h
      omega
    | array =>
      simp only [valueText, List.length_cons, List.length_append, List.length_nil] at h
      obtain ⟨mark'', hinner⟩ := printAll_fits bufSize child (depth + 1) (t' ++ [91]) none
        (by rw [List.length_append]; simp only [List.length_cons, List.length_nil]; omega)
      have hroom : ¬ bufSize ≤ (Output.of t' mark').pos + 1 := by
        rw [Output.pos_of]
        omega
      have hroom' : ¬ bufSize ≤
          (Output.of (t' ++ [91] ++ allText (depth + 1) child) mark'').pos + 1 := by
        rw [Output.pos_of, List.length_append, List.length_append]
        simp only [List.length_cons, List.length_nil]
        omega
      dsimp only
      rw [if_neg hroom, Output.put_of, hinner, if_neg hroom', Output.put_of]
      simp only [valueText, List.append_assoc, List.singleton_append]
      rfl
    | object =>
      have h' := hobject rfl
      simp only [valueText, List.length_cons, List.length_append, length_closeText] at h'
      obtain ⟨mark'', hinner⟩ := printAll_fits bufSize child (depth + 1) (t' ++ [123]) none
        (by rw [List.length_append]; simp only [List.length_cons, List.length_nil]; omega)
      have hroom : ¬ bufSize ≤ (Output.of t' mark').pos + 1 := by
        rw [Output.pos_of]
        omega
      have hroom' : ¬ bufSize ≤
          (Output.of (t' ++ [123] ++ allText (depth + 1) child) mark'').pos + 3 + depth := by
        rw [Output.pos_of, List.length_append, List.length_append]
        simp only [List.length_cons, List.length_nil]
        omega
      dsimp only
      rw [if_neg hroom, Output.put_of, hinner, if_neg hroom', strcpyOut_of]
      simp only [valueText, List.append_assoc, List.singleton_append]
      rfl

/-- A list of items finds its place, with two bytes behind it. -/
theorem printAll_fits (bufSize : ℕ) : ∀ (cs : List CJsonDoc) (depth : ℕ) (t : List UInt8)
    (mark : Option UInt8), t.length + (allText depth cs).length + 1 < bufSize →
      ∃ mark', printAll bufSize depth cs (.of t mark) = .of (t ++ allText depth cs) mark'
  | [], depth, t, mark => fun _ => ⟨mark, by unfold printAll allText; rw [List.append_nil]⟩
  | [c], depth, t, mark => by
    intro h
    have hall : allText depth [c] = itemText depth c := List.append_nil _
    rw [hall] at h ⊢
    exact ⟨c.mark, by
      rw [printAll_last, printItem_fits bufSize c depth t mark (by omega) fun _ => h]⟩
  | c :: d :: ds, depth, t, mark => by
    intro h
    have hall : allText depth (c :: d :: ds) = itemText depth c ++ 44 :: allText depth (d :: ds) :=
      rfl
    rw [hall, List.length_append, List.length_cons] at h
    have hitem := printItem_fits bufSize c depth t mark (by omega) fun _ => by omega
    obtain ⟨mark', hrest⟩ := printAll_fits bufSize (d :: ds) depth
      (t ++ itemText depth c ++ [44]) none
      (by simp only [List.length_append, List.length_cons, List.length_nil]; omega)
    refine ⟨mark', ?_⟩
    rw [printAll_more (by rw [hitem]) (by
      rw [hitem, Output.pos_of, List.length_append]
      omega), hitem, Output.put_of, hrest, hall]
    simp only [List.append_assoc, List.singleton_append]

end

end

/-! ## What the buffer holds -/

/-- The output is a C string: these bytes and a NUL. -/
structure HoldsString (o : Output UInt8) (s : List UInt8) : Prop where
  cell : ∀ i < s.length, o.cell i = s[i]?
  nul : o.cell s.length = some 0
  noNul : 0 ∉ s

/-- A text without a NUL is a C string if there is one behind it. -/
theorem holdsString_of {t s : List UInt8} {mark : Option UInt8} (ht : 0 ∉ t) :
    HoldsString (.of t mark) s ↔ s = t ∧ mark = some 0 := by
  constructor
  · rintro ⟨hcell, hnul, hs⟩
    simp only [Output.of] at hcell hnul
    rcases Nat.lt_trichotomy s.length t.length with hlt | heq | hgt
    · rw [List.getElem?_append_left hlt] at hnul
      exact absurd (List.mem_of_getElem? hnul) ht
    · rw [List.getElem?_append_right (Nat.le_of_eq heq.symm), heq, Nat.sub_self] at hnul
      refine ⟨List.ext_getElem? fun i => ?_, ?_⟩
      · rcases Nat.lt_or_ge i s.length with hi | hi
        · rw [← hcell i hi, List.getElem?_append_left (by omega)]
        · rw [List.getElem?_eq_none hi, List.getElem?_eq_none (by omega)]
      · cases mark with
        | none => exact absurd hnul (Option.some_ne_none _).symm
        | some b => exact hnul
    · -- what is behind the text is no byte of a string
      have hend := hcell t.length hgt
      rw [List.getElem?_append_right (Nat.le_refl _), Nat.sub_self,
        List.getElem?_eq_getElem hgt] at hend
      cases mark with
      | none => exact absurd hend (Option.some_ne_none _).symm
      | some b =>
        have hlen : t.length + 1 ≤ s.length := hgt
        rcases Nat.lt_or_eq_of_le hlen with hlt | heq
        · have hout := hcell (t.length + 1) hlt
          rw [List.getElem?_eq_none (by rw [List.length_append]; exact Nat.le_refl _),
            List.getElem?_eq_getElem hlt] at hout
          exact absurd hout.symm (Option.some_ne_none _)
        · rw [← heq,
            List.getElem?_eq_none (by rw [List.length_append]; exact Nat.le_refl _)] at hnul
          exact absurd hnul.symm (Option.some_ne_none _)
  · rintro ⟨rfl, rfl⟩
    refine ⟨fun i hi => List.getElem?_append_left hi, ?_, ht⟩
    show (s ++ [0])[s.length]? = some 0
    rw [List.getElem?_append_right (Nat.le_refl _), Nat.sub_self]
    rfl

theorem decimal_digits (n : ℕ) : ∀ b ∈ decimal n, 48 ≤ b ∧ b ≤ 57 := by
  intro b hb
  unfold decimal at hb
  obtain ⟨c, hc, rfl⟩ := List.mem_map.mp hb
  have hdigit := Nat.isDigit_of_mem_toDigits (by decide) (by decide) hc
  unfold Char.isDigit at hdigit
  rw [Bool.and_eq_true, decide_eq_true_iff, decide_eq_true_iff] at hdigit
  obtain ⟨hlow, hhigh⟩ := hdigit
  have hlow' : 48 ≤ c.toNat := hlow
  have hhigh' : c.toNat ≤ 57 := hhigh
  rw [UInt8.le_iff_toNat_le, UInt8.le_iff_toNat_le, UInt8.toNat_ofNat']
  show 48 ≤ _ ∧ _ ≤ 57
  omega

theorem sprintfD_bytes (z : ℤ) : ∀ b ∈ sprintfD z, b = 45 ∨ 48 ≤ b ∧ b ≤ 57 := by
  unfold sprintfD
  split_ifs
  · intro b hb
    rcases List.mem_cons.mp hb with rfl | hb
    · exact Or.inl rfl
    · exact Or.inr (decimal_digits _ b hb)
  · exact fun b hb => Or.inr (decimal_digits _ b hb)

theorem zero_not_mem_nameOf {named : Bool} {string : Option (List UInt8)}
    (h : Named named string) (depth : ℕ) : 0 ∉ nameOf depth string := by
  cases string with
  | none => exact List.not_mem_nil
  | some name =>
    cases named with
    | false => exact absurd h not_false
    | true =>
      have hname : 0 ∉ name := h
      simp [nameOf, nameText, List.mem_replicate, hname]

theorem zero_not_mem_closeText (depth : ℕ) : 0 ∉ closeText depth := by
  simp [closeText, List.mem_replicate]

mutual

/-- The text of a tree with C strings has no NUL in it. -/
theorem zero_not_mem_valueText : ∀ (c : CJsonDoc) (depth : ℕ), c.Plain → 0 ∉ valueText depth c
  | .item string type valueint valuedouble valuestring child, depth => by
    intro h
    unfold Plain at h
    unfold valueText
    cases type with
    | cFalse => exact (by decide : 0 ∉ ascii "false")
    | cTrue => exact (by decide : 0 ∉ ascii "true")
    | null => exact (by decide : 0 ∉ ascii "null")
    | number =>
      obtain ⟨-, -, rfl⟩ := h
      intro hmem
      rcases sprintfD_bytes valueint 0 hmem with h0 | ⟨h0, -⟩
      · exact absurd h0 (by decide)
      · exact absurd h0 (by decide)
    | string => simpa using h
    | array => simpa using zero_not_mem_allText child (depth + 1) h
    | object =>
      simpa using ⟨zero_not_mem_allText child (depth + 1) h, zero_not_mem_closeText depth⟩

theorem zero_not_mem_allText {named : Bool} : ∀ (cs : List CJsonDoc) (depth : ℕ),
    PlainAll named cs → 0 ∉ allText depth cs
  | [], _ => fun _ => List.not_mem_nil
  | [c], depth => by
    rintro ⟨hname, hplain, -⟩
    show 0 ∉ nameOf depth c.string ++ valueText depth c ++ []
    simp only [List.mem_append, not_or]
    exact ⟨⟨zero_not_mem_nameOf hname depth, zero_not_mem_valueText c depth hplain⟩,
      List.not_mem_nil⟩
  | c :: d :: ds, depth => by
    rintro ⟨hname, hplain, hrest⟩
    show 0 ∉ nameOf depth c.string ++ valueText depth c ++ 44 :: allText depth (d :: ds)
    simp only [List.mem_append, List.mem_cons, not_or]
    exact ⟨⟨zero_not_mem_nameOf hname depth, zero_not_mem_valueText c depth hplain⟩, by decide,
      zero_not_mem_allText (d :: ds) depth hrest⟩

end

end WLink.Misc
