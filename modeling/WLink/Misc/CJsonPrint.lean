import WLink.Httpd.Head
import WLink.Lib.Output
import WLink.Misc.CJson

/-!
# Printing JSON to a buffer

`cJSON_Print_To_Buffer` of `cJSON.c`. Before it writes anything it compares the place that is left
with what it is about to write, but for numbers: they are written first. So nothing is written
behind the buffer exactly if every number that is reached finds its place there
(`within_cJsonPrintToBuffer_iff`).

* `CJsonDoc` -- a tree with what its numbers print as
* `printItem`, `printAll` -- `Print_JSON_To_Buffer`
* `itemPlace`, `allPlace` -- where its pointer comes to stand
-/

namespace WLink.Misc

open WLink.Lib Httpd

/-! ## The functions -/

/-- `cJSON`. The double of a number is `none` if it is 0 or `valueint`, and else what `%f` makes of
it. -/
inductive CJsonDoc
  | item (string : Option (List UInt8)) (type : CJsonType) (valueint : ℤ)
      (valuedouble : Option (List UInt8)) (valuestring : List UInt8) (child : List CJsonDoc)

/-- A name, on a line of its own. -/
def nameText (depth : ℕ) (name : List UInt8) : List UInt8 :=
  10 :: (List.replicate depth 9 ++ 34 :: (name ++ [34, 58, 9]))

/-- The end of an object. -/
def closeText (depth : ℕ) : List UInt8 := 10 :: (List.replicate depth 9 ++ [125])

/-- The text of a number. -/
def numberText (valueint : ℤ) (valuedouble : Option (List UInt8)) : List UInt8 :=
  valuedouble.getD (sprintfD valueint)

/-- `strcpy` to the pointer, which is moved on by the length of the string. -/
def strcpyOut (str : List UInt8) (o : Output UInt8) : Output UInt8 := (Output.puts str o).poke 0

/-- The name of an item, if it has one: whether there is place for it, and what has been written. -/
def printName (bufSize depth : ℕ) (string : Option (List UInt8)) (o : Output UInt8) :
    Bool × Output UInt8 :=
  match string with
  | none => (true, o)
  | some name =>
    if bufSize ≤ o.pos + name.length + depth + 4 then (false, o)
    else (true, Output.puts (nameText depth name) o)

/-- One of `false`, `true` and `null`. -/
def printWord (bufSize : ℕ) (word : List UInt8) (o : Output UInt8) : Bool × Output UInt8 :=
  if bufSize ≤ o.pos + word.length then (false, o) else (true, strcpyOut word o)

/-- A number. It has been written when the place for it is looked for. -/
def printNumber (bufSize : ℕ) (text : List UInt8) (o : Output UInt8) : Bool × Output UInt8 :=
  let written := strcpyOut text o
  if bufSize ≤ o.pos + text.length then (false, { written with pos := o.pos }) else (true, written)

def printString (bufSize : ℕ) (str : List UInt8) (o : Output UInt8) : Bool × Output UInt8 :=
  if bufSize ≤ o.pos + str.length + 2 then (false, o)
  else (true, (strcpyOut str (o.put 34)).put 34)

mutual

/-- One round of the loop of `Print_JSON_To_Buffer`, without the comma: whether it comes to its end,
and what has been written. -/
def printItem (bufSize : ℕ) : ℕ → CJsonDoc → Output UInt8 → Bool × Output UInt8
  | depth, .item string type valueint valuedouble valuestring child, o =>
    let o' := (printName bufSize depth string o).2
    if (printName bufSize depth string o).1 = false then (false, o')
    else
      match type with
      | .array =>
        if bufSize ≤ o'.pos + 1 then (false, o')
        else
          let inner := printAll bufSize (depth + 1) child (o'.put 91)
          if bufSize ≤ inner.pos + 1 then (false, inner) else (true, inner.put 93)
      | .object =>
        if bufSize ≤ o'.pos + 1 then (false, o')
        else
          let inner := printAll bufSize (depth + 1) child (o'.put 123)
          if bufSize ≤ inner.pos + 3 + depth then (false, inner)
          else (true, strcpyOut (closeText depth) inner)
      | .cFalse => printWord bufSize (ascii "false") o'
      | .cTrue => printWord bufSize (ascii "true") o'
      | .null => printWord bufSize (ascii "null") o'
      | .number => printNumber bufSize (numberText valueint valuedouble) o'
      | .string => printString bufSize valuestring o'

/-- `Print_JSON_To_Buffer`: an item and those behind it. -/
def printAll (bufSize : ℕ) : ℕ → List CJsonDoc → Output UInt8 → Output UInt8
  | _, [], o => o
  | depth, c :: cs, o =>
    let r := printItem bufSize depth c o
    if r.1 = false ∨ cs.isEmpty = true then r.2
    else if bufSize ≤ r.2.pos + 1 then r.2
    else printAll bufSize depth cs (r.2.put 44)

end

/-- `cJSON_Print_To_Buffer`: an item is printed with those behind it in its list. -/
def cJsonPrintToBuffer (bufSize : ℕ) (json : CJsonDoc) (next : List CJsonDoc) : Output UInt8 :=
  printAll bufSize 0 (json :: next) .start

/-! ## Places

Where the pointer comes to stand follows from the lengths of the texts alone. -/

/-- The place behind a name, if it is written. -/
def namePlace (bufSize depth : ℕ) (string : Option (List UInt8)) (pos : ℕ) : Option ℕ :=
  match string with
  | none => some pos
  | some name =>
    if bufSize ≤ pos + name.length + depth + 4 then none else some (pos + name.length + depth + 5)

/-- Whether there is place for a text and a byte more, and the place behind it. -/
def textPlace (bufSize length pos : ℕ) : Bool × ℕ :=
  if bufSize ≤ pos + length then (false, pos) else (true, pos + length)

mutual

/-- Whether an item comes to its end, and the place behind it. -/
def itemPlace (bufSize : ℕ) : ℕ → CJsonDoc → ℕ → Bool × ℕ
  | depth, .item string type valueint valuedouble valuestring child, pos =>
    match namePlace bufSize depth string pos with
    | none => (false, pos)
    | some pos =>
      match type with
      | .array =>
        if bufSize ≤ pos + 1 then (false, pos)
        else textPlace bufSize 1 (allPlace bufSize (depth + 1) child (pos + 1))
      | .object =>
        if bufSize ≤ pos + 1 then (false, pos)
        else
          let inner := allPlace bufSize (depth + 1) child (pos + 1)
          if bufSize ≤ inner + 3 + depth then (false, inner) else (true, inner + (depth + 2))
      | .cFalse => textPlace bufSize (ascii "false").length pos
      | .cTrue => textPlace bufSize (ascii "true").length pos
      | .null => textPlace bufSize (ascii "null").length pos
      | .number => textPlace bufSize (numberText valueint valuedouble).length pos
      | .string => textPlace bufSize (valuestring.length + 2) pos

/-- The place behind a list of items, as far as they are written. -/
def allPlace (bufSize : ℕ) : ℕ → List CJsonDoc → ℕ → ℕ
  | _, [], pos => pos
  | depth, c :: cs, pos =>
    let r := itemPlace bufSize depth c pos
    if r.1 = false ∨ cs.isEmpty = true then r.2
    else if bufSize ≤ r.2 + 1 then r.2
    else allPlace bufSize depth cs (r.2 + 1)

end

mutual

/-- Every number of the item that is reached finds its place, and one more byte for the NUL. -/
def NumbersFitItem (bufSize : ℕ) : ℕ → CJsonDoc → ℕ → Prop
  | depth, .item string type valueint valuedouble _ child, pos =>
    match namePlace bufSize depth string pos with
    | none => True
    | some pos =>
      match type with
      | .array | .object => pos + 1 < bufSize → NumbersFit bufSize (depth + 1) child (pos + 1)
      | .number => pos + (numberText valueint valuedouble).length < bufSize
      | _ => True

def NumbersFit (bufSize : ℕ) : ℕ → List CJsonDoc → ℕ → Prop
  | _, [], _ => True
  | depth, c :: cs, pos =>
    let r := itemPlace bufSize depth c pos
    NumbersFitItem bufSize depth c pos ∧
      (r.1 = true → r.2 + 1 < bufSize → NumbersFit bufSize depth cs (r.2 + 1))

end

/-! ## The pointer -/

section

variable {bufSize : ℕ} {o : Output UInt8}

theorem pos_strcpyOut (str : List UInt8) (o : Output UInt8) :
    (strcpyOut str o).pos = o.pos + str.length := Output.pos_puts str o

theorem length_nameText (depth : ℕ) (name : List UInt8) :
    (nameText depth name).length = depth + name.length + 5 := by
  unfold nameText
  simp only [List.length_cons, List.length_append, List.length_replicate, List.length_nil]
  omega

theorem length_closeText (depth : ℕ) : (closeText depth).length = depth + 2 := by
  unfold closeText
  simp only [List.length_cons, List.length_append, List.length_replicate, List.length_nil]

theorem printName_of_none {depth : ℕ} {string : Option (List UInt8)}
    (h : namePlace bufSize depth string o.pos = none) :
    printName bufSize depth string o = (false, o) := by
  unfold namePlace at h
  unfold printName
  cases string with
  | none => exact absurd h (Option.some_ne_none _)
  | some name =>
    dsimp only at h ⊢
    split_ifs at h with hfull
    exact if_pos hfull

theorem printName_of_some {depth pos : ℕ} {string : Option (List UInt8)}
    (h : namePlace bufSize depth string o.pos = some pos) :
    ∃ o', printName bufSize depth string o = (true, o') ∧ o'.pos = pos := by
  unfold namePlace at h
  unfold printName
  cases string with
  | none => exact ⟨o, rfl, Option.some.inj h⟩
  | some name =>
    dsimp only at h ⊢
    split_ifs at h with hfull
    refine ⟨_, if_neg hfull, ?_⟩
    rw [Output.pos_puts, length_nameText, ← Option.some.inj h]
    omega

theorem place_printWord (word : List UInt8) (o : Output UInt8) :
    (printWord bufSize word o).1 = (textPlace bufSize word.length o.pos).1 ∧
      (printWord bufSize word o).2.pos = (textPlace bufSize word.length o.pos).2 := by
  unfold printWord textPlace
  split_ifs
  · exact ⟨rfl, rfl⟩
  · exact ⟨rfl, pos_strcpyOut word o⟩

theorem place_printNumber (text : List UInt8) (o : Output UInt8) :
    (printNumber bufSize text o).1 = (textPlace bufSize text.length o.pos).1 ∧
      (printNumber bufSize text o).2.pos = (textPlace bufSize text.length o.pos).2 := by
  unfold printNumber textPlace
  dsimp only
  split_ifs
  · exact ⟨rfl, rfl⟩
  · exact ⟨rfl, pos_strcpyOut text o⟩

theorem place_printString (str : List UInt8) (o : Output UInt8) :
    (printString bufSize str o).1 = (textPlace bufSize (str.length + 2) o.pos).1 ∧
      (printString bufSize str o).2.pos = (textPlace bufSize (str.length + 2) o.pos).2 := by
  unfold printString textPlace
  rw [← Nat.add_assoc]
  split_ifs
  · exact ⟨rfl, rfl⟩
  · refine ⟨rfl, ?_⟩
    rw [Output.pos_put, pos_strcpyOut, Output.pos_put]
    omega

mutual

theorem place_printItem (bufSize : ℕ) : ∀ (c : CJsonDoc) (depth : ℕ) (o : Output UInt8),
    (printItem bufSize depth c o).1 = (itemPlace bufSize depth c o.pos).1 ∧
      (printItem bufSize depth c o).2.pos = (itemPlace bufSize depth c o.pos).2
  | .item string type valueint valuedouble valuestring child, depth, o => by
    unfold printItem itemPlace
    cases hname : namePlace bufSize depth string o.pos with
    | none =>
      rw [printName_of_none hname]
      exact ⟨rfl, rfl⟩
    | some pos =>
      obtain ⟨o', heq, rfl⟩ := printName_of_some hname
      rw [heq]
      dsimp only
      rw [if_neg Bool.noConfusion]
      -- the children, in brackets
      have hinner : ∀ bracket, (printAll bufSize (depth + 1) child (o'.put bracket)).pos =
          allPlace bufSize (depth + 1) child (o'.pos + 1) :=
        fun bracket => pos_printAll bufSize child (depth + 1) (o'.put bracket)
      cases type with
      | array =>
        unfold textPlace
        dsimp only
        rw [← hinner 91]
        split_ifs
        · exact ⟨rfl, rfl⟩
        · exact ⟨rfl, rfl⟩
        · exact ⟨rfl, rfl⟩
      | object =>
        dsimp only
        rw [← hinner 123]
        split_ifs
        · exact ⟨rfl, rfl⟩
        · exact ⟨rfl, rfl⟩
        · exact ⟨rfl, by rw [pos_strcpyOut, length_closeText]⟩
      | cFalse => exact place_printWord _ _
      | cTrue => exact place_printWord _ _
      | null => exact place_printWord _ _
      | number => exact place_printNumber _ _
      | string => exact place_printString _ _

theorem pos_printAll (bufSize : ℕ) : ∀ (cs : List CJsonDoc) (depth : ℕ) (o : Output UInt8),
    (printAll bufSize depth cs o).pos = allPlace bufSize depth cs o.pos
  | [], _, o => by
    unfold printAll allPlace
    rfl
  | c :: cs, depth, o => by
    obtain ⟨hgoes, hpos⟩ := place_printItem bufSize c depth o
    unfold printAll allPlace
    dsimp only
    rw [← hgoes, ← hpos]
    split_ifs
    · rfl
    · rfl
    · exact pos_printAll bufSize cs depth _

end

end

/-! ## What stays written -/

section

variable {bufSize : ℕ} {o : Output UInt8}

theorem grows_strcpyOut (str : List UInt8) (o : Output UInt8) : o.Grows (strcpyOut str o) :=
  (Output.grows_puts str o).trans (Output.grows_poke 0 _)

theorem grows_printName (bufSize depth : ℕ) (string : Option (List UInt8)) (o : Output UInt8) :
    o.Grows (printName bufSize depth string o).2 := by
  unfold printName
  split
  · exact Output.Grows.refl o
  · split_ifs
    · exact Output.Grows.refl o
    · exact Output.grows_puts _ o

theorem grows_printWord (bufSize : ℕ) (word : List UInt8) (o : Output UInt8) :
    o.Grows (printWord bufSize word o).2 := by
  unfold printWord
  split_ifs
  · exact Output.Grows.refl o
  · exact grows_strcpyOut word o

theorem grows_printNumber (bufSize : ℕ) (text : List UInt8) (o : Output UInt8) :
    o.Grows (printNumber bufSize text o).2 := by
  unfold printNumber
  dsimp only
  split_ifs
  · exact grows_strcpyOut text o
  · exact grows_strcpyOut text o

theorem grows_printString (bufSize : ℕ) (str : List UInt8) (o : Output UInt8) :
    o.Grows (printString bufSize str o).2 := by
  unfold printString
  split_ifs
  · exact Output.Grows.refl o
  · exact ((Output.grows_put 34 o).trans (grows_strcpyOut str _)).trans (Output.grows_put 34 _)

mutual

theorem grows_printItem (bufSize : ℕ) : ∀ (c : CJsonDoc) (depth : ℕ) (o : Output UInt8),
    o.Grows (printItem bufSize depth c o).2
  | .item string type valueint valuedouble valuestring child, depth, o => by
    have hname := grows_printName bufSize depth string o
    have hchild := fun bracket => (Output.grows_put bracket _).trans
      (grows_printAll bufSize child (depth + 1)
        ((printName bufSize depth string o).2.put bracket))
    unfold printItem
    dsimp only
    by_cases hok : (printName bufSize depth string o).1 = false
    · rw [if_pos hok]
      exact hname
    · rw [if_neg hok]
      refine hname.trans ?_
      cases type with
      | array =>
        dsimp only
        split_ifs
        · exact Output.Grows.refl _
        · exact hchild 91
        · exact (hchild 91).trans (Output.grows_put 93 _)
      | object =>
        dsimp only
        split_ifs
        · exact Output.Grows.refl _
        · exact hchild 123
        · exact (hchild 123).trans (grows_strcpyOut _ _)
      | cFalse => exact grows_printWord _ _ _
      | cTrue => exact grows_printWord _ _ _
      | null => exact grows_printWord _ _ _
      | number => exact grows_printNumber _ _ _
      | string => exact grows_printString _ _ _

theorem grows_printAll (bufSize : ℕ) : ∀ (cs : List CJsonDoc) (depth : ℕ) (o : Output UInt8),
    o.Grows (printAll bufSize depth cs o)
  | [], _, o => by
    unfold printAll
    exact Output.Grows.refl o
  | c :: cs, depth, o => by
    have hitem := grows_printItem bufSize c depth o
    unfold printAll
    dsimp only
    split_ifs
    · exact hitem
    · exact hitem
    · exact (hitem.trans (Output.grows_put 44 _)).trans (grows_printAll bufSize cs depth _)

end

/-! ## What is written behind the buffer -/

theorem within_strcpyOut {str : List UInt8} (h : o.pos + str.length < bufSize) :
    (strcpyOut str o).Within bufSize ↔ o.Within bufSize := by
  unfold strcpyOut
  rw [Output.within_poke, Output.within_puts (Nat.le_of_lt h), Output.pos_puts, and_iff_left h]

/-- The NUL is written behind the buffer if the string ends there. -/
theorem not_within_strcpyOut {str : List UInt8} (h : bufSize ≤ o.pos + str.length) :
    ¬ (strcpyOut str o).Within bufSize := by
  intro hw
  have hpos := (Output.within_poke.mp hw).2
  rw [Output.pos_puts] at hpos
  omega

theorem within_printName (bufSize depth : ℕ) (string : Option (List UInt8)) (o : Output UInt8) :
    (printName bufSize depth string o).2.Within bufSize ↔ o.Within bufSize := by
  unfold printName
  split
  · exact Iff.rfl
  · split_ifs with hfull
    · exact Iff.rfl
    · exact Output.within_puts (by rw [length_nameText]; omega)

theorem within_printWord (bufSize : ℕ) (word : List UInt8) (o : Output UInt8) :
    (printWord bufSize word o).2.Within bufSize ↔ o.Within bufSize := by
  unfold printWord
  split_ifs with hfull
  · exact Iff.rfl
  · exact within_strcpyOut (Nat.lt_of_not_le hfull)

theorem within_printString (bufSize : ℕ) (str : List UInt8) (o : Output UInt8) :
    (printString bufSize str o).2.Within bufSize ↔ o.Within bufSize := by
  unfold printString
  split_ifs with hfull
  · exact Iff.rfl
  · have hlt : o.pos + str.length + 2 < bufSize := Nat.lt_of_not_le hfull
    have hpos : (strcpyOut str (o.put 34)).pos = o.pos + 1 + str.length := by
      show (Output.puts str (o.put 34)).pos = _
      rw [Output.pos_puts, Output.pos_put]
    rw [Output.within_put, hpos, within_strcpyOut (by rw [Output.pos_put]; omega),
      Output.within_put, and_iff_left (by omega), and_iff_left (by omega)]

/-- A number stays in the buffer exactly if it finds its place. -/
theorem within_printNumber {text : List UInt8} (h : o.Within bufSize) :
    (printNumber bufSize text o).2.Within bufSize ↔ o.pos + text.length < bufSize := by
  unfold printNumber
  dsimp only
  split_ifs with hfull
  · exact iff_of_false (not_within_strcpyOut hfull) (Nat.not_lt_of_le hfull)
  · have hlt := Nat.lt_of_not_le hfull
    exact iff_of_true ((within_strcpyOut hlt).mpr h) hlt

mutual

/-- The induction is on the tree; what is written behind the buffer is never unwritten. -/
theorem within_printItem (bufSize : ℕ) : ∀ (c : CJsonDoc) (depth : ℕ) (o : Output UInt8),
    o.Within bufSize →
      ((printItem bufSize depth c o).2.Within bufSize ↔ NumbersFitItem bufSize depth c o.pos)
  | .item string type valueint valuedouble valuestring child, depth, o => by
    intro hw
    have hwname := (within_printName bufSize depth string o).mpr hw
    unfold printItem NumbersFitItem
    cases hname : namePlace bufSize depth string o.pos with
    | none =>
      rw [printName_of_none hname]
      exact iff_of_true hw trivial
    | some pos =>
      obtain ⟨o', heq, rfl⟩ := printName_of_some hname
      rw [heq] at hwname ⊢
      dsimp only at hwname ⊢
      rw [if_neg Bool.noConfusion]
      -- the children, in brackets
      have hchild := fun bracket (hroom : o'.pos + 1 < bufSize) =>
        within_printAll bufSize child (depth + 1) (o'.put bracket)
          (Output.within_put.mpr ⟨hwname, Nat.lt_of_succ_lt hroom⟩)
      cases type with
      | array =>
        dsimp only
        split_ifs with hfull hfull'
        · exact iff_of_true hwname fun hroom => absurd hroom (Nat.not_lt_of_le hfull)
        · rw [hchild 91 (Nat.lt_of_not_le hfull), imp_iff_right (Nat.lt_of_not_le hfull)]
          rfl
        · rw [Output.within_put, hchild 91 (Nat.lt_of_not_le hfull),
            imp_iff_right (Nat.lt_of_not_le hfull), and_iff_left (by omega)]
          rfl
      | object =>
        dsimp only
        split_ifs with hfull hfull'
        · exact iff_of_true hwname fun hroom => absurd hroom (Nat.not_lt_of_le hfull)
        · rw [hchild 123 (Nat.lt_of_not_le hfull), imp_iff_right (Nat.lt_of_not_le hfull)]
          rfl
        · rw [within_strcpyOut (by rw [length_closeText]; omega),
            hchild 123 (Nat.lt_of_not_le hfull), imp_iff_right (Nat.lt_of_not_le hfull)]
          rfl
      | cFalse => exact iff_of_true ((within_printWord _ _ _).mpr hwname) trivial
      | cTrue => exact iff_of_true ((within_printWord _ _ _).mpr hwname) trivial
      | null => exact iff_of_true ((within_printWord _ _ _).mpr hwname) trivial
      | number => exact within_printNumber hwname
      | string => exact iff_of_true ((within_printString _ _ _).mpr hwname) trivial

theorem within_printAll (bufSize : ℕ) : ∀ (cs : List CJsonDoc) (depth : ℕ) (o : Output UInt8),
    o.Within bufSize →
      ((printAll bufSize depth cs o).Within bufSize ↔ NumbersFit bufSize depth cs o.pos)
  | [], _, o => by
    intro hw
    unfold printAll NumbersFit
    exact iff_of_true hw trivial
  | c :: cs, depth, o => by
    intro hw
    have hitem := within_printItem bufSize c depth o hw
    obtain ⟨hgoes, hpos⟩ := place_printItem bufSize c depth o
    unfold printAll NumbersFit
    dsimp only
    rw [← hgoes, ← hpos]
    split_ifs with hlast hfull
    · rw [hitem]
      refine (and_iff_left_of_imp fun _ hok _ => ?_).symm
      rw [hok] at hlast
      rw [List.isEmpty_iff.mp (hlast.resolve_left Bool.noConfusion)]
      unfold NumbersFit
      trivial
    · rw [hitem]
      exact (and_iff_left_of_imp fun _ _ hroom => absurd hroom (Nat.not_lt_of_le hfull)).symm
    · have hroom := Nat.lt_of_not_le hfull
      have hok : (printItem bufSize depth c o).1 = true :=
        Bool.eq_true_of_not_eq_false fun h => hlast (Or.inl h)
      rw [← hitem]
      constructor
      · intro hall
        have hcomma : ((printItem bufSize depth c o).2.put 44).Within bufSize :=
          (grows_printAll bufSize cs depth _).within hall
        exact ⟨(Output.within_put.mp hcomma).1,
          fun _ _ => (within_printAll bufSize cs depth _ hcomma).mp hall⟩
      · rintro ⟨hin, hrest⟩
        have hcomma : ((printItem bufSize depth c o).2.put 44).Within bufSize :=
          Output.within_put.mpr ⟨hin, Nat.lt_of_succ_lt hroom⟩
        exact (within_printAll bufSize cs depth _ hcomma).mpr (hrest hok hroom)

end

end

/-- Nothing is written behind the buffer exactly if every number that is reached finds its place in
it. -/
theorem within_cJsonPrintToBuffer_iff (bufSize : ℕ) (json : CJsonDoc) (next : List CJsonDoc) :
    (cJsonPrintToBuffer bufSize json next).Within bufSize ↔
      NumbersFit bufSize 0 (json :: next) 0 :=
  within_printAll bufSize (json :: next) 0 .start Output.within_start

/-- The number 1000 is printed to a buffer of two bytes. -/
theorem not_within_thousand :
    ¬ (cJsonPrintToBuffer 2 (.item none .number 1000 none [] []) []).Within 2 := by
  intro h
  exact absurd (h 4 (by decide)) (by decide +kernel)

end WLink.Misc
