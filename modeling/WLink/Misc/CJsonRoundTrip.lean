import WLink.Misc.CJsonEscapes
import WLink.Misc.CJsonNumber

/-!
# Printing to a buffer and parsing

What `cJSON_Print_To_Buffer` leaves in a buffer that has place for the text and a NUL is a string
that `cJSON_Parse` makes the same tree of, unless (`printRoundTrips_iff`)

* the root is an array or a string: no NUL is written behind it,
* the root is an object, and the buffer has no byte more: the bracket of the object is left out,
* there are quotes or backslashes in a string or a name: they are not escaped,
* the root has a name: it is printed, but a text does not begin with a name.
-/

namespace WLink.Misc

open WLink.Lib Httpd CString Exec
open CJson (CleanBytes CleanAll contentAll)
open CJsonDoc (Named PlainAll jsonAll nameOf valueText allText moreText itemText)

/-- If there is place for the text of a tree and a NUL in the buffer, then it holds a string that
the tree is read from again, whatever is behind the NUL. -/
def PrintRoundTrips (env : CJsonEnv) (bufSize : ℕ) (doc : CJsonDoc) : Prop :=
  (itemText 0 doc).length < bufSize →
    ∃ s, HoldsString (cJsonPrintToBuffer bufSize doc []) s ∧ ∀ tail,
      Returns (cJsonParse env (s ++ 0 :: tail) : HeapM Unit (Option CJsonNode)) fun r =>
        ∃ c, r = some c ∧ c.json.content = doc.json.content

/-- The trees and buffers for which the text is read back. -/
def ReadsBack (bufSize : ℕ) (doc : CJsonDoc) : Prop :=
  doc.string = none ∧ doc.type ≠ .array ∧ doc.type ≠ .string ∧ doc.json.Clean ∧
    (doc.type = .object → (itemText 0 doc).length + 1 < bufSize)

/-! ## The buffer -/

theorem itemText_of_none {doc : CJsonDoc} (h : doc.string = none) (depth : ℕ) :
    itemText depth doc = valueText depth doc := by
  unfold itemText
  rw [h]
  rfl

section

variable {bufSize : ℕ} {doc : CJsonDoc}

/-- With place enough the buffer holds the text. -/
theorem cJsonPrintToBuffer_fits (h : (itemText 0 doc).length < bufSize)
    (hobject : doc.type = .object → (itemText 0 doc).length + 1 < bufSize) :
    cJsonPrintToBuffer bufSize doc [] = .of (itemText 0 doc) doc.mark := by
  have hitem := printItem_fits bufSize doc 0 [] none (by simpa using h) (by simpa using hobject)
  unfold cJsonPrintToBuffer
  rw [printAll_last, ← Output.of_nil, hitem, List.nil_append]

/-- An object that lacks one byte is left open. -/
theorem cJsonPrintToBuffer_open {valueint : ℤ} {valuedouble : Option (List UInt8)}
    {valuestring : List UInt8} {child : List CJsonDoc}
    (h : bufSize = (valueText 0 (.item none .object valueint valuedouble valuestring
      child)).length + 1) :
    ∃ mark, cJsonPrintToBuffer bufSize (.item none .object valueint valuedouble valuestring child)
      [] = .of (123 :: allText 1 child) mark ∧ (child = [] → mark = none) := by
  have hlength : (valueText 0 (.item none .object valueint valuedouble valuestring child)).length =
      (allText 1 child).length + 3 := by
    simp only [valueText, List.length_cons, List.length_append, length_closeText]
  have hinner : ∃ mark, printAll bufSize 1 child (.of [123] none) =
      .of (123 :: allText 1 child) mark ∧ (child = [] → mark = none) := by
    cases child with
    | nil => exact ⟨none, by unfold printAll; rfl, fun _ => rfl⟩
    | cons c cs =>
      obtain ⟨mark, hall⟩ := printAll_fits bufSize (c :: cs) 1 [123] none (by
        show 1 + (allText 1 (c :: cs)).length + 1 < bufSize
        omega)
      exact ⟨mark, hall, fun h => absurd h (List.cons_ne_nil c cs)⟩
  obtain ⟨mark, hall, hmark⟩ := hinner
  refine ⟨mark, ?_, hmark⟩
  have hroom : ¬ bufSize ≤ (Output.start : Output UInt8).pos + 1 := by
    show ¬ bufSize ≤ 0 + 1
    omega
  have hfull : bufSize ≤ (Output.of (123 :: allText 1 child) mark).pos + 3 + 0 := by
    rw [Output.pos_of, List.length_cons]
    omega
  have hstart : (Output.start : Output UInt8).put 123 = .of [123] none := by
    rw [← Output.of_nil, Output.put_of, List.nil_append]
  unfold cJsonPrintToBuffer
  rw [printAll_last]
  unfold printItem printName
  dsimp only
  rw [if_neg Bool.noConfusion, if_neg hroom, hstart, hall, if_pos hfull]

end

/-! ## Reading it -/

section

variable {σ : Type} {env : CJsonEnv} (hmalloc : ∀ n, env.mallocOk n = true)
  (hint : ∀ z : ℤ, -2 ^ 31 ≤ z → z < 2 ^ 31 → env.numberInt (sprintfD z) = z)
include hmalloc hint

/-- A text with a NUL behind it is read as the tree that it has been printed from. -/
theorem returns_cJsonParse {doc : CJsonDoc} (h : doc.Plain) (hclean : doc.json.Clean)
    (hstring : doc.string = none) (tail : List UInt8) :
    Returns (cJsonParse env (valueText 0 doc ++ 0 :: tail) : HeapM σ _) fun r =>
      ∃ c, r = some c ∧ c.json.content = doc.json.content := by
  refine (returns_cJsonNewItem hmalloc).bind fun item hitem => ?_
  obtain ⟨b, rfl⟩ := hitem
  refine Returns.bind_lift (skip_valueText h 0 _) ?_
  have hname : (none : Option HeapString).map HeapString.bytes = doc.string := hstring.symm
  refine (returns_parseValue hmalloc hint doc 0 _ _ (0 :: tail) h hclean hname
    ⟨0, tail, rfl, Or.inl rfl⟩ (Nat.lt_succ_self _)).bind fun r hr => ?_
  obtain ⟨c, rest⟩ := r
  obtain ⟨hcontent, hrest⟩ := hr
  subst hrest
  exact Returns.pure ⟨c, rfl, hcontent⟩

/-- An object that is left open is not read. -/
theorem yields_cJsonParse_open {child : List CJsonDoc} (hne : child ≠ []) (h : PlainAll true child)
    (hclean : CleanAll (jsonAll child)) (tail : List UInt8) :
    Yields (cJsonParse env (123 :: allText 1 child ++ 0 :: tail) : HeapM σ _) (· = none) := by
  obtain ⟨c, cs, rfl⟩ := List.exists_cons_of_ne_nil hne
  have hlength := length_startText_le 1 (c :: cs)
  have hkind : valueKind (123 :: (allText 1 (c :: cs) ++ 0 :: tail)) = .ok .object :=
    valueKind_of_head (by decide) (by decide) (by decide) _
  have hvalue : skip (123 :: (allText 1 (c :: cs) ++ 0 :: tail)) =
      .ok (123 :: (allText 1 (c :: cs) ++ 0 :: tail)) := skip_stays (Or.inr (by decide)) _
  have hend : skip (0 :: tail) = .ok (0 :: tail) := skip_stays (Or.inl rfl) tail
  have hparse : ∀ item : CJsonItem, Returns (parseValue env
      (2 * (123 :: (allText 1 (c :: cs) ++ 0 :: tail)).length + 1) item
      (123 :: (allText 1 (c :: cs) ++ 0 :: tail)) : HeapM σ _) fun r => r.2 = none := by
    intro item
    refine Returns.bind_lift hkind ?_
    refine Returns.bind_lift (skip_allText h 1 (0 :: tail)) ?_
    have hitems : (startText 1 (c :: cs) ++ 0 :: tail).head? ≠ some 125 := (skip_startText h 1 _).2
    rw [if_neg hitems]
    refine (returns_parseChildren hmalloc hint (c :: cs) 1 _ true _ (0 :: tail) (0 :: tail) hne h
      hclean (skip_startText h 1 _).1 ⟨0, tail, rfl, Or.inl rfl⟩ hend (by simp) (by
        simp only [List.length_append, List.length_cons]
        omega)).bind fun r hr => Returns.pure ?_
    have hnone : r.2 = if (0 :: tail).head? = some 125 then some tail else none := hr.2
    exact hnone
  refine (returns_cJsonNewItem hmalloc).yields.bind fun item hitem => ?_
  obtain ⟨b, rfl⟩ := hitem
  refine Yields.bind_lift hvalue ?_
  refine (hparse _).yields.bind fun r hr => ?_
  obtain ⟨node, rest⟩ := r
  subst hr
  exact Yields.seq fun _ => Yields.pure rfl

omit hmalloc hint in
/-- A tree that is read has no name at the root. If it is read out of a text with as many
backslashes and `u` as it has itself, then it has no quotes and no backslashes. -/
theorem clean_of_returns {doc : CJsonDoc} {s : List UInt8}
    (h : Returns (cJsonParse env (s ++ [0]) : HeapM Unit _) fun r =>
      ∃ c, r = some c ∧ c.json.content = doc.json.content) :
    doc.string = none ∧ (escapes s = doc.json.escapes → doc.json.Clean) := by
  obtain ⟨r, ⟨c, rfl, hcontent⟩, hyields⟩ := (h.and_yields (yields_cJsonParse env _)).exists_result
    ⟨(), Ledger.empty, 0⟩
  obtain ⟨hstring, hclean⟩ := hyields c rfl
  constructor
  · rw [← json_string, ← CJson.string_content, ← hcontent, CJson.string_content, hstring]
  · intro hescapes
    rw [← CJson.clean_content, ← hcontent, CJson.clean_content]
    refine hclean ?_
    rw [← CJson.escapes_content, hcontent, CJson.escapes_content, escapes_append, hescapes]
    rfl

/-- What is in the buffer is read as the tree only if nothing of the text is missing. -/
theorem readsBack_of_returns {bufSize : ℕ} {doc : CJsonDoc} {s : List UInt8} (h : doc.Plain)
    (hfits : (itemText 0 doc).length < bufSize)
    (hs : HoldsString (cJsonPrintToBuffer bufSize doc []) s)
    (hparse : Returns (cJsonParse env (s ++ [0]) : HeapM Unit _) fun r =>
      ∃ c, r = some c ∧ c.json.content = doc.json.content) : ReadsBack bufSize doc := by
  obtain ⟨hstring, hclean⟩ := clean_of_returns hparse
  have htext := itemText_of_none hstring 0
  by_cases hspace : doc.type = .object → (itemText 0 doc).length + 1 < bufSize
  · have hzero : 0 ∉ itemText 0 doc := by
      rw [htext]
      exact zero_not_mem_valueText doc 0 h
    rw [cJsonPrintToBuffer_fits hfits hspace, holdsString_of hzero] at hs
    obtain ⟨rfl, hmark⟩ := hs
    have htype : ¬ (doc.type = .array ∨ doc.type = .string) := by
      intro htype
      unfold CJsonDoc.mark at hmark
      rw [if_pos htype] at hmark
      exact absurd hmark (Option.some_ne_none 0).symm
    obtain ⟨harray, hstr⟩ := not_or.mp htype
    refine ⟨hstring, harray, hstr, hclean ?_, hspace⟩
    rw [htext, escapes_valueText doc 0 h]
  · obtain ⟨hobject, hfull⟩ := Classical.not_imp.mp hspace
    obtain ⟨string, type, valueint, valuedouble, valuestring, child⟩ := doc
    have hstring' : string = none := hstring
    have hobject' : type = .object := hobject
    subst hstring' hobject'
    have hplain : PlainAll true child := h
    have hsize : bufSize = (valueText 0 (.item none .object valueint valuedouble valuestring
        child)).length + 1 := by
      rw [← htext]
      omega
    obtain ⟨mark, hopen, hnil⟩ := cJsonPrintToBuffer_open hsize
    have hzero : 0 ∉ 123 :: allText 1 child := by
      rw [List.mem_cons, not_or]
      exact ⟨by decide, zero_not_mem_allText child 1 hplain⟩
    rw [hopen, holdsString_of hzero] at hs
    obtain ⟨rfl, rfl⟩ := hs
    have hne : child ≠ [] := fun hchild => absurd (hnil hchild) (Option.some_ne_none 0)
    have hclean' : CleanAll (jsonAll child) := by
      refine hclean ?_
      rw [escapes_cons_of_not (by decide) (by decide), escapes_allText child 1 hplain]
      rfl
    obtain ⟨r, ⟨c, hc, -⟩, hnone⟩ := (hparse.and_yields
      (yields_cJsonParse_open hmalloc hint hne hplain hclean' [])).exists_result
      ⟨(), Ledger.empty, 0⟩
    exact absurd (hc.symm.trans hnone) (Option.some_ne_none c)

end

/-- The tree comes back exactly if it is one that is read back, or there is no place for the
text. -/
theorem printRoundTrips_iff {mallocOk : ℕ → Bool} (hmalloc : ∀ n, mallocOk n = true) {F : Doubles}
    (hF : F.Exact) {doc : CJsonDoc} (h : doc.Plain) (bufSize : ℕ) :
    PrintRoundTrips ⟨mallocOk, F.numberInt⟩ bufSize doc ↔
      bufSize ≤ (itemText 0 doc).length ∨ ReadsBack bufSize doc := by
  have hint : ∀ z : ℤ, -2 ^ 31 ≤ z → z < 2 ^ 31 → F.numberInt (sprintfD z) = z :=
    fun z hlow hhigh => Doubles.numberInt_sprintfD hF hlow hhigh
  constructor
  · intro hround
    rcases Nat.lt_or_ge (itemText 0 doc).length bufSize with hfits | hsmall
    · obtain ⟨s, hs, hparse⟩ := hround hfits
      exact Or.inr (readsBack_of_returns hmalloc hint h hfits hs (hparse []))
    · exact Or.inl hsmall
  · rintro (hsmall | ⟨hstring, harray, hstr, hclean, hspace⟩) hfits
    · exact absurd hfits (Nat.not_lt_of_le hsmall)
    · have htext := itemText_of_none hstring 0
      have hmark : doc.mark = some 0 := if_neg (not_or.mpr ⟨harray, hstr⟩)
      refine ⟨valueText 0 doc, ?_, returns_cJsonParse hmalloc hint h hclean hstring⟩
      rw [cJsonPrintToBuffer_fits hfits hspace, htext,
        holdsString_of (zero_not_mem_valueText doc 0 h)]
      exact ⟨rfl, hmark⟩

/-- An object with an array in it comes back from a buffer of 64 bytes. -/
theorem printRoundTrips_object : PrintRoundTrips ⟨fun _ => true, Doubles.ints.numberInt⟩ 64
    (.item none .object 0 none [] [.item (some (ascii "status")) .array 0 none []
      [.item none .number (-12) none [] [], .item none .string 0 none (ascii "on") []]]) := by
  refine (printRoundTrips_iff (fun _ => rfl) Doubles.exact_ints ?_ 64).mpr (Or.inr ?_)
  · have hstatus : 0 ∉ ascii "status" := by decide
    have hon : 0 ∉ ascii "on" := by decide
    exact ⟨hstatus, ⟨trivial, ⟨by decide, by decide, rfl⟩, trivial, hon, trivial⟩, trivial⟩
  · have hstatus : CleanBytes (ascii "status") := by decide
    have hnone : CleanBytes [] := by decide
    have hon : CleanBytes (ascii "on") := by decide
    exact ⟨rfl, CJsonType.noConfusion, CJsonType.noConfusion,
      ⟨hstatus, ⟨hnone, trivial, hnone, hon, trivial⟩, trivial⟩, fun _ => by decide +kernel⟩

/-- An object with a string `a"b` does not come back: to the parser the string ends behind `a`. -/
theorem not_printRoundTrips_quotes : ¬ PrintRoundTrips ⟨fun _ => true, Doubles.ints.numberInt⟩ 64
    (.item none .object 0 none [] [.item (some (ascii "s")) .string 0 none [97, 34, 98] []]) := by
  intro hround
  obtain ⟨s, hs, hparse⟩ := hround (by decide +kernel)
  have hs0 : 0 ∉ ascii "s" := by decide
  have hstr : (0 : UInt8) ∉ [97, 34, 98] := by decide
  obtain ⟨-, -, -, hclean, -⟩ := readsBack_of_returns (fun _ => rfl)
    (fun z hlow hhigh => Doubles.numberInt_sprintfD Doubles.exact_ints hlow hhigh)
    (by exact ⟨hs0, hstr, trivial⟩) (by decide +kernel) hs (hparse [])
  have hquote : (34 : UInt8) ∉ [97, 34, 98] := hclean.2.1.1
  exact hquote (by decide)

end WLink.Misc
