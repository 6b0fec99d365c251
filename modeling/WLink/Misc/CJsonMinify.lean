import WLink.Misc.CJsonRenderRead

/-!
# `cJSON_Minify`

The function writes the text over itself, and what it writes is never in front of what it still has
to read. Of a text with blanks and comments between its tokens it leaves the tokens
(`cJsonMinify_text`), so the text comes to the same value as before (`minify_parse`), and a formatted
text becomes the one that is printed without a format (`minify_print`).
-/

namespace WLink.Misc

open WLink.Lib Httpd CString Exec

/-! ## The function -/

/-- The text, and the two pointers into it. -/
structure Minify where
  text : List UInt8
  json : ℕ
  into : ℕ

/-- `text[i]` -/
def peek (text : List UInt8) (i : ℕ) : Except Fault UInt8 :=
  match text[i]? with
  | none => .error .read
  | some b => .ok b

/-- `*into++=*json++` -/
def copyByte (s : Minify) : Except Fault Minify := do
  let b ← peek s.text s.json
  if s.into < s.text.length then pure ⟨s.text.set s.into b, s.json + 1, s.into + 1⟩
  else .error .write

/-- `while (*json && *json!='\n') json++` -/
def lineEnd (text : List UInt8) : ℕ → ℕ → Except Fault ℕ
  | 0, _ => .error .hang
  | fuel + 1, json => do
    let b ← peek text json
    if b ≠ 0 ∧ b ≠ 10 then lineEnd text fuel (json + 1) else pure json

/-- `while (*json && !(*json=='*' && json[1]=='/')) json++` -/
def blockEnd (text : List UInt8) : ℕ → ℕ → Except Fault ℕ
  | 0, _ => .error .hang
  | fuel + 1, json => do
    let b ← peek text json
    if b = 0 then pure json
    else if b = 42 then
      let c ← peek text (json + 1)
      if c = 47 then pure json else blockEnd text fuel (json + 1)
    else blockEnd text fuel (json + 1)

/-- The loop over a string, up to the quotes behind it. -/
def copyString : ℕ → Minify → Except Fault Minify
  | 0, _ => .error .hang
  | fuel + 1, s => do
    let b ← peek s.text s.json
    if b ≠ 0 ∧ b ≠ 34 then
      let s ← if b = 92 then copyByte s else pure s
      let s ← copyByte s
      copyString fuel s
    else pure s

/-- One round of the loop, where `*json` is `b`. -/
def minifyStep (fuel : ℕ) (b : UInt8) (s : Minify) : Except Fault Minify :=
  if b = 32 ∨ b = 9 ∨ b = 13 ∨ b = 10 then pure { s with json := s.json + 1 }
  else if b = 47 then do
    let c ← peek s.text (s.json + 1)
    if c = 47 then
      let json ← lineEnd s.text fuel s.json
      pure { s with json }
    else if c = 42 then
      let json ← blockEnd s.text fuel s.json
      pure { s with json := json + 2 }
    else copyByte s
  else if b = 34 then do
    let s ← copyByte s
    let s ← copyString fuel s
    copyByte s
  else copyByte s

def minifyLoop : ℕ → Minify → Except Fault Minify
  | 0, _ => .error .hang
  | fuel + 1, s => do
    let b ← peek s.text s.json
    if b = 0 then pure s
    else
      let s ← minifyStep fuel b s
      minifyLoop fuel s

/-- `cJSON_Minify`: what is in the memory of the text then. -/
def cJsonMinify (text : List UInt8) : Except Fault (List UInt8) := do
  let s ← minifyLoop (text.length + 1) ⟨text, 0, 0⟩
  if s.into < s.text.length then pure (s.text.set s.into 0) else .error .write

/-! ## Tokens and comments -/

/-- What is between the quotes of a string, as far as `cJSON_Minify` looks at it. -/
inductive Body : List UInt8 → Prop
  | nil : Body []
  | byte {b : UInt8} {t : List UInt8} (hnul : b ≠ 0) (hquote : b ≠ 34) (hslash : b ≠ 92)
      (h : Body t) : Body (b :: t)
  | slash (c : UInt8) {t : List UInt8} (h : Body t) : Body (92 :: c :: t)

/-- The byte is copied by itself. -/
def Solid (b : UInt8) : Prop :=
  b ≠ 0 ∧ b ≠ 32 ∧ b ≠ 9 ∧ b ≠ 13 ∧ b ≠ 10 ∧ b ≠ 47 ∧ b ≠ 34

instance (b : UInt8) : Decidable (Solid b) := inferInstanceAs (Decidable (_ ∧ _))

/-- A string in quotes, or a token without blanks and slashes. -/
def Token (tok : List UInt8) : Prop := (∃ t, Body t ∧ tok = quoted t) ∨ ∀ b ∈ tok, Solid b

/-- Blanks, comments up to the end of the line, and comments in `/*` and `*/`. The code takes `/*/`
for a comment as well, so the first `*/` is looked for from the star of `/*` on. -/
inductive Comments : List UInt8 → Prop
  | nil : Comments []
  | blank {b : UInt8} {gap : List UInt8} (hb : b = 32 ∨ b = 9 ∨ b = 13 ∨ b = 10)
      (h : Comments gap) : Comments (b :: gap)
  | line {body gap : List UInt8} (hbody : ∀ b ∈ body, b ≠ 0 ∧ b ≠ 10) (h : Comments gap) :
      Comments (47 :: 47 :: (body ++ 10 :: gap))
  | block {body gap : List UInt8} (hnul : 0 ∉ body) (hclose : ¬ [42, 47] <:+: 42 :: body)
      (h : Comments gap) : Comments (47 :: 42 :: (body ++ 42 :: 47 :: gap))

/-! ## The two pointers -/

/-- What has been written is in front of what is still to be read. -/
def Minify.At (s : Minify) (n : ℕ) (out rem : List UInt8) : Prop :=
  ∃ junk, s.text = out ++ (junk ++ rem) ∧ s.into = out.length ∧
    s.json = out.length + junk.length ∧ s.text.length = n

section

variable {s : Minify} {n : ℕ} {out rem : List UInt8} {b c : UInt8}

theorem peek_of_at (h : s.At n out (b :: rem)) : peek s.text s.json = .ok b := by
  obtain ⟨junk, htext, -, hjson, -⟩ := h
  unfold peek
  rw [htext, hjson, List.getElem?_append_right (Nat.le_add_right _ _), Nat.add_sub_cancel_left,
    List.getElem?_append_right (Nat.le_refl _), Nat.sub_self]
  rfl

/-- The pointer that reads goes on. -/
theorem at_skip (h : s.At n out (b :: rem)) :
    ({ s with json := s.json + 1 } : Minify).At n out rem := by
  obtain ⟨junk, htext, hinto, hjson, hlength⟩ := h
  refine ⟨junk ++ [b], ?_, hinto, ?_, hlength⟩
  · show s.text = _
    rw [htext, List.append_assoc, List.singleton_append]
  · show s.json + 1 = _
    rw [hjson, List.length_append, List.length_singleton, Nat.add_assoc]

theorem peek_next (h : s.At n out (b :: c :: rem)) : peek s.text (s.json + 1) = .ok c :=
  peek_of_at (at_skip h)

/-- A byte may be written, over the first of what is between or over the one that has been read. -/
theorem at_write (h : s.At n out (c :: rem)) (b : UInt8) : s.into < s.text.length ∧
    ∃ junk, s.text.set s.into b = out ++ b :: (junk ++ rem) ∧ s.into = out.length ∧
      s.json = out.length + junk.length ∧ s.text.length = n := by
  obtain ⟨junk, htext, hinto, hjson, hlength⟩ := h
  refine ⟨?_, ?_⟩
  · rw [htext, hinto]
    simp only [List.length_append, List.length_cons]
    omega
  · rw [htext] at hlength
    rw [htext, hinto, List.set_append_right _ _ (Nat.le_refl _), Nat.sub_self]
    cases junk with
    | nil => exact ⟨[], rfl, rfl, hjson, hlength⟩
    | cons j junk =>
      refine ⟨junk ++ [c], ?_, rfl, ?_, hlength⟩
      · rw [List.append_assoc]
        rfl
      · rw [hjson, List.length_append, List.length_singleton, List.length_cons]

/-- Both pointers go on. -/
theorem copyByte_at (h : s.At n out (b :: rem)) :
    ∃ s', copyByte s = .ok s' ∧ s'.At n (out ++ [b]) rem := by
  obtain ⟨hlt, junk, htext, hinto, hjson, hlength⟩ := at_write h b
  refine ⟨⟨s.text.set s.into b, s.json + 1, s.into + 1⟩, ?_, junk, ?_, ?_, ?_, ?_⟩
  · unfold copyByte
    rw [peek_of_at h]
    exact if_pos hlt
  · show s.text.set s.into b = _
    rw [htext, List.append_assoc, List.singleton_append]
  · show s.into + 1 = _
    rw [hinto, List.length_append, List.length_singleton]
  · show s.json + 1 = _
    rw [hjson, List.length_append, List.length_singleton]
    omega
  · show (s.text.set s.into b).length = n
    rw [List.length_set, hlength]

theorem copyString_at {t : List UInt8} (h : Body t) {fuel : ℕ} (hfuel : t.length < fuel)
    (hs : s.At n out (t ++ 34 :: rem)) :
    ∃ s', copyString fuel s = .ok s' ∧ s'.At n (out ++ t) (34 :: rem) := by
  induction h generalizing s out fuel with
  | nil =>
    obtain ⟨fuel, rfl⟩ := Nat.exists_eq_add_of_lt hfuel
    refine ⟨s, ?_, by rwa [List.append_nil]⟩
    unfold copyString
    rw [peek_of_at hs]
    rfl
  | @byte b t hnul hquote hslash _ ih =>
    obtain ⟨fuel, rfl⟩ := Nat.exists_eq_add_of_lt hfuel
    rw [List.cons_append] at hs
    obtain ⟨s₁, hcopy, hs₁⟩ := copyByte_at hs
    have hlt : t.length < (b :: t).length + fuel := by
      rw [List.length_cons]
      omega
    obtain ⟨s₂, hrest, hs₂⟩ := ih hlt hs₁
    refine ⟨s₂, ?_, by rwa [List.append_assoc, List.singleton_append] at hs₂⟩
    unfold copyString
    rw [peek_of_at hs]
    show (if b ≠ 0 ∧ b ≠ 34 then _ else _ : Except Fault Minify) = _
    rw [if_pos ⟨hnul, hquote⟩, if_neg hslash]
    show (copyByte s >>= copyString _ : Except Fault Minify) = _
    rw [hcopy]
    exact hrest
  | @slash c t _ ih =>
    obtain ⟨fuel, rfl⟩ := Nat.exists_eq_add_of_lt hfuel
    rw [List.cons_append, List.cons_append] at hs
    obtain ⟨s₁, hcopy, hs₁⟩ := copyByte_at hs
    obtain ⟨s₂, hcopy', hs₂⟩ := copyByte_at hs₁
    have hlt : t.length < (92 :: c :: t).length + fuel := by
      rw [List.length_cons, List.length_cons]
      omega
    obtain ⟨s₃, hrest, hs₃⟩ := ih hlt hs₂
    refine ⟨s₃, ?_, ?_⟩
    · unfold copyString
      rw [peek_of_at hs]
      show (copyByte s >>= fun s => copyByte s >>= copyString _ : Except Fault Minify) = _
      rw [hcopy]
      show (copyByte s₁ >>= copyString _ : Except Fault Minify) = _
      rw [hcopy']
      exact hrest
    · simpa only [List.append_assoc, List.singleton_append, List.cons_append,
        List.nil_append] using hs₃

theorem lineEnd_at {body : List UInt8} (hbody : ∀ b ∈ body, b ≠ 0 ∧ b ≠ 10) (hc : c = 0 ∨ c = 10)
    {fuel : ℕ} (hfuel : body.length < fuel) (hs : s.At n out (body ++ c :: rem)) :
    ∃ json, lineEnd s.text fuel s.json = .ok json ∧
      ({ s with json := json } : Minify).At n out (c :: rem) := by
  induction body generalizing s fuel with
  | nil =>
    obtain ⟨fuel, rfl⟩ := Nat.exists_eq_add_of_lt hfuel
    refine ⟨s.json, ?_, hs⟩
    unfold lineEnd
    rw [peek_of_at hs]
    exact if_neg fun h => hc.elim h.1 h.2
  | cons b body ih =>
    obtain ⟨fuel, rfl⟩ := Nat.exists_eq_add_of_lt hfuel
    obtain ⟨hb, hbody⟩ := List.forall_mem_cons.mp hbody
    rw [List.cons_append] at hs
    have hlt : body.length < (b :: body).length + fuel := by
      rw [List.length_cons]
      omega
    obtain ⟨json, hline, hs'⟩ := ih hbody hlt (at_skip hs)
    refine ⟨json, ?_, hs'⟩
    unfold lineEnd
    rw [peek_of_at hs]
    exact (if_pos hb).trans hline

theorem blockEnd_at {body : List UInt8} (hnul : 0 ∉ body) (hclose : ¬ [42, 47] <:+: body)
    {fuel : ℕ} (hfuel : body.length < fuel) (hs : s.At n out (body ++ 42 :: 47 :: rem)) :
    ∃ json, blockEnd s.text fuel s.json = .ok json ∧
      ({ s with json := json } : Minify).At n out (42 :: 47 :: rem) := by
  induction body generalizing s fuel with
  | nil =>
    obtain ⟨fuel, rfl⟩ := Nat.exists_eq_add_of_lt hfuel
    refine ⟨s.json, ?_, hs⟩
    unfold blockEnd
    rw [peek_of_at hs]
    show (peek s.text (s.json + 1) >>= fun c => _ : Except Fault ℕ) = _
    rw [peek_next hs]
    rfl
  | cons b body ih =>
    obtain ⟨fuel, rfl⟩ := Nat.exists_eq_add_of_lt hfuel
    obtain ⟨hb, hnul⟩ : ¬ 0 = b ∧ 0 ∉ body := by rwa [← not_or, ← List.mem_cons]
    rw [List.infix_cons_iff, not_or] at hclose
    rw [List.cons_append] at hs
    have hlt : body.length < (b :: body).length + fuel := by
      rw [List.length_cons]
      omega
    obtain ⟨json, hblock, hs'⟩ := ih hnul hclose.2 hlt (at_skip hs)
    refine ⟨json, ?_, hs'⟩
    unfold blockEnd
    rw [peek_of_at hs]
    show (if b = 0 then _ else _ : Except Fault ℕ) = _
    rw [if_neg (Ne.symm hb)]
    split_ifs with hstar
    · -- the slash of `*/` is not behind this star
      obtain ⟨c, text, htext, hc⟩ : ∃ c text, body ++ 42 :: 47 :: rem = c :: text ∧ c ≠ 47 := by
        cases body with
        | nil => exact ⟨42, _, rfl, by decide⟩
        | cons c body =>
          refine ⟨c, _, rfl, ?_⟩
          rintro rfl
          subst hstar
          exact hclose.1 ⟨body, rfl⟩
      rw [htext] at hs
      rw [peek_next hs]
      exact (if_neg hc).trans hblock
    · exact hblock

end

/-! ## The loop -/

/-- The loop comes from the one text in front of its pointer to the other, and writes behind what it
has written. -/
def Passes (n : ℕ) (out text out' rem : List UInt8) : Prop :=
  ∀ ⦃fuel s⦄, text.length < fuel → s.At n out text →
    ∃ fuel' s', minifyLoop fuel s = minifyLoop fuel' s' ∧ rem.length < fuel' ∧ s'.At n out' rem

section

variable {n : ℕ} {out out' out'' text mid rem : List UInt8} {b : UInt8}

theorem Passes.refl (n : ℕ) (out text : List UInt8) : Passes n out text out text :=
  fun fuel s hfuel hs => ⟨fuel, s, rfl, hfuel, hs⟩

theorem Passes.trans (h : Passes n out text out' mid) (h' : Passes n out' mid out'' rem) :
    Passes n out text out'' rem := by
  intro fuel s hfuel hs
  obtain ⟨fuel₁, s₁, heq, hfuel₁, hs₁⟩ := h hfuel hs
  obtain ⟨fuel₂, s₂, heq', hfuel₂, hs₂⟩ := h' hfuel₁ hs₁
  exact ⟨fuel₂, s₂, heq.trans heq', hfuel₂, hs₂⟩

/-- One round. -/
theorem passes_step (hb : b ≠ 0) (hrem : rem.length ≤ text.length)
    (h : ∀ ⦃fuel s⦄, text.length < fuel → s.At n out (b :: text) →
      ∃ s', minifyStep fuel b s = .ok s' ∧ s'.At n out' rem) : Passes n out (b :: text) out' rem := by
  intro fuel s hfuel hs
  rw [List.length_cons] at hfuel
  obtain ⟨fuel, rfl⟩ := Nat.exists_eq_succ_of_ne_zero (Nat.ne_zero_of_lt hfuel)
  have hlt : text.length < fuel := Nat.lt_of_succ_lt_succ hfuel
  obtain ⟨s', hstep, hs'⟩ := h hlt hs
  refine ⟨fuel, s', ?_, Nat.lt_of_le_of_lt hrem hlt, hs'⟩
  conv_lhs => unfold minifyLoop
  rw [peek_of_at hs]
  show (if b = 0 then _ else _ : Except Fault Minify) = _
  rw [if_neg hb, hstep]
  rfl

theorem passes_blank (hb : b = 32 ∨ b = 9 ∨ b = 13 ∨ b = 10) : Passes n out (b :: rem) out rem := by
  have hnul : b ≠ 0 := by rcases hb with rfl | rfl | rfl | rfl <;> decide
  refine passes_step hnul (Nat.le_refl _) fun fuel s _ hs => ?_
  exact ⟨_, if_pos hb, at_skip hs⟩

theorem passes_byte (hb : Solid b) : Passes n out (b :: rem) (out ++ [b]) rem := by
  obtain ⟨hnul, hspace, htab, hcr, hlf, hslash, hquote⟩ := hb
  refine passes_step hnul (Nat.le_refl _) fun fuel s _ hs => ?_
  obtain ⟨s', hcopy, hs'⟩ := copyByte_at hs
  refine ⟨s', ?_, hs'⟩
  unfold minifyStep
  rw [if_neg (fun h => h.elim hspace fun h => h.elim htab fun h => h.elim hcr hlf), if_neg hslash,
    if_neg hquote, hcopy]

theorem passes_quoted {t : List UInt8} (h : Body t) :
    Passes n out (quoted t ++ rem) (out ++ quoted t) rem := by
  have htext : quoted t ++ rem = 34 :: (t ++ 34 :: rem) := by
    unfold quoted
    rw [List.cons_append, List.append_assoc, List.singleton_append]
  have hout : out ++ quoted t = out ++ [34] ++ t ++ [34] := by
    unfold quoted
    simp only [List.append_assoc, List.cons_append, List.nil_append]
  rw [htext, hout]
  refine passes_step (by decide) ?_ fun fuel s hfuel hs => ?_
  · rw [List.length_append, List.length_cons]
    omega
  have hlt : t.length < fuel := by
    rw [List.length_append] at hfuel
    omega
  obtain ⟨s₁, hopen, hs₁⟩ := copyByte_at hs
  obtain ⟨s₂, hbody, hs₂⟩ := copyString_at h hlt hs₁
  obtain ⟨s₃, hclose, hs₃⟩ := copyByte_at hs₂
  refine ⟨s₃, ?_, hs₃⟩
  show (copyByte s >>= fun s => copyString fuel s >>= copyByte) = _
  rw [hopen]
  show (copyString fuel s₁ >>= copyByte) = _
  rw [hbody]
  exact hclose

theorem passes_line {body : List UInt8} {c : UInt8} (hbody : ∀ b ∈ body, b ≠ 0 ∧ b ≠ 10)
    (hc : c = 0 ∨ c = 10) : Passes n out (47 :: 47 :: (body ++ c :: rem)) out (c :: rem) := by
  refine passes_step (by decide) ?_ fun fuel s hfuel hs => ?_
  · rw [List.length_cons, List.length_cons, List.length_append, List.length_cons]
    omega
  have hslashes : ∀ b ∈ 47 :: 47 :: body, b ≠ 0 ∧ b ≠ 10 :=
    List.forall_mem_cons.mpr ⟨by decide, List.forall_mem_cons.mpr ⟨by decide, hbody⟩⟩
  have hlt : (47 :: 47 :: body).length < fuel := by
    rw [List.length_cons, List.length_append, List.length_cons] at hfuel
    rw [List.length_cons, List.length_cons]
    omega
  obtain ⟨json, hline, hs'⟩ := lineEnd_at hslashes hc hlt hs
  refine ⟨_, ?_, hs'⟩
  show (peek s.text (s.json + 1) >>= fun c => _ : Except Fault Minify) = _
  rw [peek_next hs]
  show (lineEnd s.text fuel s.json >>= fun json => _ : Except Fault Minify) = _
  rw [hline]
  rfl

theorem passes_block {body : List UInt8} (hnul : 0 ∉ body) (hclose : ¬ [42, 47] <:+: 42 :: body) :
    Passes n out (47 :: 42 :: (body ++ 42 :: 47 :: rem)) out rem := by
  refine passes_step (by decide) ?_ fun fuel s hfuel hs => ?_
  · rw [List.length_cons, List.length_append, List.length_cons, List.length_cons]
    omega
  have hnul' : 0 ∉ 47 :: 42 :: body := by
    rw [List.mem_cons, List.mem_cons, not_or, not_or]
    exact ⟨by decide, by decide, hnul⟩
  have hclose' : ¬ [42, 47] <:+: 47 :: 42 :: body := by
    rw [List.infix_cons_iff, not_or]
    exact ⟨fun h => absurd (List.cons_prefix_cons.mp h).1 (by decide), hclose⟩
  have hlt : (47 :: 42 :: body).length < fuel := by
    rw [List.length_cons, List.length_append, List.length_cons] at hfuel
    rw [List.length_cons, List.length_cons]
    omega
  obtain ⟨json, hblock, hs'⟩ := blockEnd_at hnul' hclose' hlt hs
  refine ⟨_, ?_, at_skip (at_skip hs')⟩
  show (peek s.text (s.json + 1) >>= fun c => _ : Except Fault Minify) = _
  rw [peek_next hs]
  show (blockEnd s.text fuel s.json >>= fun json => _ : Except Fault Minify) = _
  rw [hblock]
  rfl

theorem passes_comments {gap : List UInt8} (h : Comments gap) : Passes n out (gap ++ rem) out rem := by
  induction h with
  | nil => exact .refl n out rem
  | blank hb _ ih => exact (passes_blank hb).trans ih
  | line hbody _ ih =>
    simp only [List.cons_append, List.append_assoc]
    exact (passes_line hbody (.inr rfl)).trans ((passes_blank (.inr (.inr (.inr rfl)))).trans ih)
  | block hnul hclose _ ih =>
    simp only [List.cons_append, List.append_assoc]
    exact (passes_block hnul hclose).trans ih

theorem passes_token {tok : List UInt8} (h : Token tok) :
    Passes n out (tok ++ rem) (out ++ tok) rem := by
  rcases h with ⟨t, ht, rfl⟩ | hsolid
  · exact passes_quoted ht
  · induction tok generalizing out with
    | nil =>
      rw [List.append_nil]
      exact .refl n out rem
    | cons b tok ih =>
      obtain ⟨hb, htok⟩ := List.forall_mem_cons.mp hsolid
      have hrest : Passes n (out ++ [b]) (tok ++ rem) (out ++ [b] ++ tok) rem := ih htok
      rw [List.append_assoc, List.singleton_append] at hrest
      exact (passes_byte hb).trans hrest

theorem passes_spaced {toks : List (List UInt8)} (hspaced : Spaced Comments toks rem text)
    (htoks : ∀ tok ∈ toks, Token tok) : Passes n out text (out ++ toks.flatten) rem := by
  induction hspaced generalizing out with
  | nil =>
    rw [List.flatten_nil, List.append_nil]
    exact .refl n out _
  | cons hgap _ ih =>
    obtain ⟨htok, htoks⟩ := List.forall_mem_cons.mp htoks
    rw [List.flatten_cons, ← List.append_assoc out]
    exact (passes_comments hgap).trans ((passes_token htok).trans (ih htoks))

/-- Of tokens with blanks and comments in front of them, and of a last comment that may be without
the end of its line, the tokens are left. The bytes behind the NUL stay as they are. -/
theorem cJsonMinify_text {toks : List (List UInt8)} {gap last tail text : List UInt8}
    (htoks : ∀ tok ∈ toks, Token tok) (hgap : Comments gap)
    (hlast : last = [] ∨ ∃ body, last = 47 :: 47 :: body ∧ ∀ b ∈ body, b ≠ 0 ∧ b ≠ 10)
    (htext : Spaced Comments toks (gap ++ (last ++ 0 :: tail)) text) :
    ∃ junk, cJsonMinify text = .ok (toks.flatten ++ 0 :: (junk ++ tail)) ∧
      (toks.flatten ++ 0 :: (junk ++ tail)).length = text.length := by
  have hend : Passes text.length toks.flatten (last ++ 0 :: tail) toks.flatten (0 :: tail) := by
    rcases hlast with rfl | ⟨body, rfl, hbody⟩
    · exact .refl _ _ _
    · exact passes_line hbody (.inl rfl)
  have hpass : Passes text.length [] text toks.flatten (0 :: tail) :=
    (passes_spaced htext htoks).trans ((passes_comments hgap).trans hend)
  obtain ⟨fuel, s, hloop, hfuel, hs⟩ := hpass (Nat.lt_succ_self _)
    (⟨[], rfl, rfl, rfl, rfl⟩ : Minify.At ⟨text, 0, 0⟩ text.length [] text)
  obtain ⟨fuel, rfl⟩ := Nat.exists_eq_succ_of_ne_zero (Nat.ne_zero_of_lt hfuel)
  have hstop : minifyLoop (fuel + 1) s = .ok s := by
    unfold minifyLoop
    rw [peek_of_at hs]
    rfl
  obtain ⟨hlt, junk, hset, -, -, hlength⟩ := at_write hs 0
  refine ⟨junk, ?_, ?_⟩
  · rw [← hset]
    unfold cJsonMinify
    rw [hloop, hstop]
    exact if_pos hlt
  · rw [← hset, List.length_set, hlength]

end

/-! ## Texts of values -/

theorem Solid.token {b : UInt8} (h : Solid b) : Token [b] := .inr (List.forall_mem_singleton.mpr h)

/-- Tokens between two brackets. -/
theorem token_between {b b' : UInt8} {toks : List (List UInt8)} (hb : Solid b) (hb' : Solid b')
    (h : ∀ tok ∈ toks, Token tok) : ∀ tok ∈ [b] :: (toks ++ [[b']]), Token tok := by
  rw [List.forall_mem_cons, List.forall_mem_append]
  exact ⟨hb.token, h, List.forall_mem_singleton.mpr hb'.token⟩

theorem solid_digit : ∀ b : UInt8, isDigit b = true → Solid b := forall_byte (by decide +kernel)

theorem Body.append {t t' : List UInt8} (h : Body t) (h' : Body t') : Body (t ++ t') := by
  induction h with
  | nil => exact h'
  | byte hnul hquote hslash _ ih => exact .byte hnul hquote hslash ih
  | slash c _ ih => exact .slash c ih

theorem HexText.body {ds : List UInt8} {n : ℕ} (h : HexText ds n) : Body ds := by
  obtain ⟨p, q, r, s, a, b, c, d, rfl, hp, hq, hr, hs, -⟩ := h.digits
  have hdigit : ∀ {b : UInt8} {d : ℕ} {t : List UInt8}, hexDigit b = some d → Body t →
      Body (b :: t) := fun hb => .byte (hexDigit_ne hb).2.2 (hexDigit_ne hb).1 (hexDigit_ne hb).2.1
  exact hdigit hp (hdigit hq (hdigit hr (hdigit hs .nil)))

theorem StringText.body {bs t : List UInt8} (h : StringText bs t) : Body t := by
  induction h with
  | nil => exact .nil
  | byte hnul hquote hslash _ ih => exact .byte hnul hquote hslash ih
  | short _ _ ih => exact .slash _ ih
  | unicode hds _ _ ih => exact .slash 117 (hds.body.append ih)
  | pair hds hds' _ _ _ _ ih =>
    exact .slash 117 (hds.body.append (.slash 117 (hds'.body.append ih)))

theorem StringText.token {bs t : List UInt8} (h : StringText bs t) : Token (quoted t) :=
  .inl ⟨t, h.body, rfl⟩

theorem NumberText.token {t : List UInt8} (h : NumberText t) : Token t := by
  obtain ⟨sign, integer, fraction, exponent, rfl, hsign, hinteger, hfraction, hexponent⟩ := h
  have hdigits : ∀ {ds : List UInt8}, (∀ b ∈ ds, isDigit b = true) → ∀ b ∈ ds, Solid b :=
    fun h b hb => solid_digit b (h b hb)
  refine .inr ?_
  simp only [List.forall_mem_append]
  refine ⟨?_, ?_, ?_, ?_⟩
  · rcases hsign with rfl | rfl <;> decide +kernel
  · rcases hinteger with rfl | ⟨d, ds, rfl, hlow, hhigh, hds⟩
    · decide +kernel
    · have hall : ∀ b : UInt8, 49 ≤ b ∧ b ≤ 57 → Solid b := forall_byte (by decide +kernel)
      exact List.forall_mem_cons.mpr ⟨hall d ⟨hlow, hhigh⟩, hdigits hds⟩
  · rcases hfraction with rfl | ⟨d, ds, rfl, hds⟩
    · decide +kernel
    · exact List.forall_mem_cons.mpr ⟨by decide +kernel, hdigits hds⟩
  · rcases hexponent with rfl | ⟨e, s, d, ds, rfl, he, hs, hds⟩
    · decide +kernel
    · rw [List.forall_mem_cons, List.forall_mem_append]
      refine ⟨?_, ?_, hdigits hds⟩
      · rcases he with rfl | rfl <;> decide +kernel
      · rcases hs with rfl | rfl | rfl <;> decide +kernel

section

variable {numberInt : List UInt8 → ℤ}

mutual

/-- The tokens of a value are copied as they are. -/
theorem token_of_value : ∀ (v : CJson) (toks : List (List UInt8)), ValueTokens numberInt v toks →
    ∀ tok ∈ toks, Token tok
  | .item string type valueint valuestring child, toks => by
    intro h
    cases type with
    | null =>
      rw [show toks = [ascii "null"] from h]
      exact List.forall_mem_singleton.mpr (.inr (by decide +kernel))
    | cFalse =>
      rw [show toks = [ascii "false"] from h]
      exact List.forall_mem_singleton.mpr (.inr (by decide +kernel))
    | cTrue =>
      rw [show toks = [ascii "true"] from h]
      exact List.forall_mem_singleton.mpr (.inr (by decide +kernel))
    | number =>
      obtain ⟨t, ht, -, rfl⟩ := h
      exact List.forall_mem_singleton.mpr ht.token
    | string =>
      obtain ⟨t, ht, rfl⟩ := h
      exact List.forall_mem_singleton.mpr ht.token
    | array =>
      obtain ⟨items, hitems, rfl⟩ := h
      exact token_between (by decide) (by decide) (token_of_items false child items hitems)
    | object =>
      obtain ⟨items, hitems, rfl⟩ := h
      exact token_between (by decide) (by decide) (token_of_items true child items hitems)

theorem token_of_items (named : Bool) : ∀ (vs : List CJson) (toks : List (List UInt8)),
    ItemsTokens numberInt named vs toks → ∀ tok ∈ toks, Token tok
  | [], toks => by
    intro h
    rw [show toks = [] from h]
    exact nofun
  | v :: vs, toks => by
    intro h
    obtain ⟨name, value, more, hname, hvalue, hmore, rfl⟩ := h
    rw [List.forall_mem_append, List.forall_mem_append]
    refine ⟨?_, token_of_value v value hvalue, ?_⟩
    · unfold NameTokens at hname
      split at hname
      · obtain ⟨t, ht, rfl⟩ := hname
        exact List.forall_mem_cons.mpr ⟨ht.token,
          List.forall_mem_singleton.mpr (Solid.token (by decide))⟩
      · rw [hname]
        exact nofun
      · exact hname.elim
    · split_ifs at hmore
      · rw [hmore]
        exact nofun
      · obtain ⟨items, hitems, rfl⟩ := hmore
        exact List.forall_mem_cons.mpr ⟨Solid.token (by decide),
          token_of_items named vs items hitems⟩

end

end

/-- A text with comments is minified to one that is read as the value, without anything between the
tokens. -/
theorem minify_parse {σ : Type} {env : CJsonEnv} (hmalloc : ∀ n, env.mallocOk n = true) {v : CJson}
    {toks : List (List UInt8)} {gap last tail text : List UInt8} (hname : v.string = none)
    (htoks : ValueTokens env.numberInt v toks) (hgap : Comments gap)
    (hlast : last = [] ∨ ∃ body, last = 47 :: 47 :: body ∧ ∀ b ∈ body, b ≠ 0 ∧ b ≠ 10)
    (htext : Spaced Comments toks (gap ++ (last ++ 0 :: tail)) text) :
    ∃ rest, cJsonMinify text = .ok (toks.flatten ++ 0 :: rest) ∧
      Returns (cJsonParseWithOpts env true (toks.flatten ++ 0 :: rest) : HeapM σ _) fun r =>
        ∃ c, r = some (c, 0 :: rest) ∧ c.json.content = v.content := by
  obtain ⟨junk, hminify, -⟩ := cJsonMinify_text (token_of_value v toks htoks) hgap hlast htext
  refine ⟨junk ++ tail, hminify, ?_⟩
  refine (parseWithOpts_text hmalloc hname htoks blank_nil (.inl rfl)
    (spaced_flatten blank_nil toks (0 :: (junk ++ tail))) ⟨0, _, rfl, by decide⟩ true).imp
    fun r hr => ?_
  obtain ⟨hnone, hcontent⟩ := hr
  cases r with
  | none => exact absurd rfl (hnone.mp rfl).2
  | some r =>
    obtain ⟨hcontent, hrest⟩ := hcontent r.1 r.2 rfl
    refine ⟨r.1, ?_, hcontent⟩
    rw [show (0 :: (junk ++ tail) : List UInt8) = r.2 from hrest.symm]

/-- `[ /**/"\"", true ]//`, minified. -/
theorem minify_parse_array : ∃ rest, cJsonMinify [91, 32, 47, 42, 42, 47, 34, 92, 34, 34, 44, 9, 116,
      114, 117, 101, 93, 10, 47, 47, 0] =
    .ok (([[91], quoted [92, 34], [44], ascii "true", [93]] : List (List UInt8)).flatten ++
      0 :: rest) ∧
    Returns (cJsonParseWithOpts ⟨fun _ => true, fun _ => 0⟩ true
      (([[91], quoted [92, 34], [44], ascii "true", [93]] : List (List UInt8)).flatten ++
        0 :: rest) : HeapM Unit _) fun r => ∃ c, r = some (c, 0 :: rest) ∧
      c.json.content = (CJson.item none .array 0 [] [.item none .string 0 [34] [],
        .item none .cTrue 0 [] []]).content := by
  have hquote : StringText [34] [92, 34] := .short (by decide) .nil
  have hitem : ItemsTokens (fun _ => 0) false [.item none .cTrue 0 [] []] [ascii "true"] :=
    ⟨[], _, [], rfl, rfl, rfl, rfl⟩
  have htoks : ValueTokens (fun _ => 0)
      (.item none .array 0 [] [.item none .string 0 [34] [], .item none .cTrue 0 [] []])
      [[91], quoted [92, 34], [44], ascii "true", [93]] :=
    ⟨_, ⟨[], _, _, rfl, ⟨_, hquote, rfl⟩, ⟨_, hitem, rfl⟩, rfl⟩, rfl⟩
  have hcomment : Comments [32, 47, 42, 42, 47] :=
    .blank (.inl rfl) (.block List.not_mem_nil (by decide) .nil)
  have hend : Comments [10] := .blank (.inr (.inr (.inr rfl))) .nil
  have htext : Spaced Comments [[91], quoted [92, 34], [44], ascii "true", [93]]
      ([10] ++ ([47, 47] ++ 0 :: [])) [91, 32, 47, 42, 42, 47, 34, 92, 34, 34, 44, 9, 116, 114, 117,
        101, 93, 10, 47, 47, 0] :=
    .cons .nil (.cons hcomment (.cons .nil (.cons (.blank (.inr (.inl rfl)) .nil)
      (.cons .nil (.nil _)))))
  exact minify_parse (fun _ => rfl) rfl htoks hend (.inr ⟨[], rfl, nofun⟩) htext

/-! ## Texts that are printed -/

def noNul (string : Option HeapString) : Prop := ∀ str ∈ string, 0 ∉ str.bytes

mutual

/-- The strings of the tree are strings of C. -/
def CJsonNode.NoNul : CJsonNode → Prop
  | .node item child => noNul item.string ∧ noNul item.valuestring ∧ NoNulAll child

def CJsonNode.NoNulAll : List CJsonNode → Prop
  | [] => True
  | c :: cs => c.NoNul ∧ NoNulAll cs

end

theorem CJsonNode.NoNul.string {c : CJsonNode} (h : c.NoNul) : noNul c.item.string := by
  cases c
  exact h.1

theorem token_stringPtr {string : Option HeapString} (h : noNul string) :
    Token (stringPtrText string) := by
  cases string with
  | none => exact .inr nofun
  | some str => exact (stringText_escapeBytes (h str rfl)).token

section

variable {dtoa : CJsonItem → Option (List UInt8)}

theorem token_itemNumber (hdtoa : ∀ item text, dtoa item = some text → ∀ b ∈ text, Solid b)
    (item : CJsonItem) : Token (itemNumberText dtoa item) := by
  unfold itemNumberText
  cases h : dtoa item with
  | none => exact (numberText_sprintfD item.valueint).token
  | some text => exact .inr (hdtoa item text h)

mutual

theorem token_of_node (hdtoa : ∀ item text, dtoa item = some text → ∀ b ∈ text, Solid b) :
    ∀ c : CJsonNode, c.NoNul → ∀ tok ∈ nodeTokens dtoa c, Token tok
  | .node item child => by
    rintro ⟨-, hstring, hchild⟩
    unfold nodeTokens
    split
    · exact List.forall_mem_singleton.mpr (.inr (by decide +kernel))
    · exact List.forall_mem_singleton.mpr (.inr (by decide +kernel))
    · exact List.forall_mem_singleton.mpr (.inr (by decide +kernel))
    · exact List.forall_mem_singleton.mpr (token_itemNumber hdtoa item)
    · exact List.forall_mem_singleton.mpr (token_stringPtr hstring)
    · exact token_between (by decide) (by decide) (token_of_nodes hdtoa false child hchild)
    · exact token_between (by decide) (by decide) (token_of_nodes hdtoa true child hchild)

theorem token_of_nodes (hdtoa : ∀ item text, dtoa item = some text → ∀ b ∈ text, Solid b)
    (named : Bool) : ∀ cs : List CJsonNode, CJsonNode.NoNulAll cs →
      ∀ tok ∈ itemsTokens dtoa named cs, Token tok
  | [] => fun _ => nofun
  | c :: cs => by
    rintro ⟨hc, hcs⟩
    unfold itemsTokens
    rw [List.forall_mem_append, List.forall_mem_append]
    refine ⟨?_, token_of_node hdtoa c hc, ?_⟩
    · split_ifs
      · exact List.forall_mem_cons.mpr ⟨token_stringPtr hc.string,
          List.forall_mem_singleton.mpr (Solid.token (by decide))⟩
      · exact nofun
    · split_ifs
      · exact nofun
      · exact List.forall_mem_cons.mpr ⟨Solid.token (by decide),
          token_of_nodes hdtoa named cs hcs⟩

end

end

theorem FmtGap.comments {fmt : Bool} {gap : List UInt8} (h : FmtGap fmt gap) : Comments gap := by
  induction gap with
  | nil => exact .nil
  | cons b gap ih =>
    obtain ⟨hb, hgap⟩ := List.forall_mem_cons.mp h
    refine .blank ?_ (ih hgap)
    rcases hb.2 with rfl | rfl | rfl <;> decide

/-- A text that is not formatted has nothing between its tokens. -/
theorem nodeText_eq_flatten (dtoa : CJsonItem → Option (List UInt8)) (c : CJsonNode) :
    nodeText dtoa false 0 c = (nodeTokens dtoa c).flatten := by
  have h : Spaced (FmtGap false) (nodeTokens dtoa c) [] (nodeText dtoa false 0 c ++ []) :=
    spaced_nodeText false c 0 []
  have heq := (h.mono fun gap => FmtGap.eq_nil).eq_flatten
  rwa [List.append_nil, List.append_nil] at heq

/-- The formatted text of a tree is minified to the one that is not formatted. -/
theorem minify_print {σ : Type} {env : CJsonEnv} (hmalloc : ∀ n, env.mallocOk n = true)
    {dtoa : CJsonItem → Option (List UInt8)} (hfits : FitsNumber dtoa)
    (hdtoa : ∀ item text, dtoa item = some text → ∀ b ∈ text, Solid b) {c : CJsonNode}
    (hints : c.Ints) (hnul : c.NoNul) (tail : List UInt8) :
    Returns (cJsonPrintText env dtoa true c >>= fun out =>
        cJsonPrintText env dtoa false c >>= fun out' => pure (out, out') : HeapM σ _)
      fun r => ∃ rest, cJsonMinify (textOf r.1 ++ 0 :: tail) = .ok (textOf r.2 ++ 0 :: rest) := by
  have hprint : ∀ fmt, Returns (cJsonPrintText env dtoa fmt c : HeapM σ _) fun out =>
      textOf out = nodeText dtoa fmt 0 c := by
    intro fmt
    refine ((agrees_printValueText (σ := σ) env hfits fmt c 0 hints).returns
      (returns_printValue hmalloc c)).imp fun out hout => ?_
    obtain ⟨b, htext, hsome⟩ := hout
    obtain ⟨block, rfl⟩ := Option.isSome_iff_exists.mp hsome
    rw [show out = some ⟨block, nodeText dtoa fmt 0 c⟩ from htext]
    rfl
  refine (hprint true).bind fun out hout => (hprint false).bind fun out' hout' =>
    Returns.pure ?_
  have hspaced : Spaced Comments (nodeTokens dtoa c) ([] ++ ([] ++ 0 :: tail))
      (nodeText dtoa true 0 c ++ 0 :: tail) :=
    (spaced_nodeText true c 0 (0 :: tail)).mono fun gap => FmtGap.comments
  obtain ⟨junk, hminify, -⟩ := cJsonMinify_text (token_of_node hdtoa c hnul) .nil (.inl rfl) hspaced
  refine ⟨junk ++ tail, ?_⟩
  show cJsonMinify (textOf out ++ 0 :: tail) = .ok (textOf out' ++ 0 :: (junk ++ tail))
  rw [hout, hout', nodeText_eq_flatten, hminify]

/-- `{"a":[-1]}`, with the name in quotes twice. -/
theorem minify_print_object : Returns
    (cJsonPrintText ⟨fun _ => true, fun _ => 0⟩ (fun _ => none) true
        (.node ⟨0, none, .object, 0, none⟩ [.node ⟨1, some ⟨2, [34, 97, 34]⟩, .array, 0, none⟩
          [.node ⟨3, none, .number, -1, none⟩ []]]) >>= fun out =>
      cJsonPrintText ⟨fun _ => true, fun _ => 0⟩ (fun _ => none) false
        (.node ⟨0, none, .object, 0, none⟩ [.node ⟨1, some ⟨2, [34, 97, 34]⟩, .array, 0, none⟩
          [.node ⟨3, none, .number, -1, none⟩ []]]) >>= fun out' => pure (out, out')
      : HeapM Unit _)
    fun r => ∃ rest, cJsonMinify (textOf r.1 ++ 0 :: []) = .ok (textOf r.2 ++ 0 :: rest) := by
  have hnul : noNul (some ⟨2, [34, 97, 34]⟩) := by
    rintro str ⟨⟩
    decide
  have hnone : noNul none := nofun
  refine minify_print (fun _ => rfl) (fun item text h => ?_) (fun item text h => ?_) ?_ ?_ []
  · exact absurd h (Option.some_ne_none text).symm
  · exact absurd h (Option.some_ne_none text).symm
  · exact ⟨by decide, ⟨by decide, ⟨by decide, trivial⟩, trivial⟩, trivial⟩
  · exact ⟨hnone, hnone, ⟨hnul, hnone, ⟨hnone, hnone, trivial⟩, trivial⟩, trivial⟩

end WLink.Misc
