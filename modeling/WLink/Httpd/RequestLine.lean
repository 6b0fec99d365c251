import WLink.Httpd.ParseHeaders
import WLink.Httpd.UtilsTheorems

/-!
# Parsing the request line

A `RequestLine` is a line that the parser is meant for: a method, a target and a version with
one blank between them. `ParsesLine` says that the parser has taken it apart correctly.

The parser looks for method and version by substring search, so a target can stand in for
them. `MethodClear` and `VersionClear` are the targets that do no harm, and
`parseInMsgHeaders_line_iff` says that the parser is right for exactly these.
-/

namespace WLink.Httpd

open WLink.Lib CString Exec

/-! ## Request lines -/

inductive HttpVersion
  | v1p0
  | v1p1
deriving DecidableEq, Repr

def HttpVersion.text : HttpVersion → List UInt8
  | .v1p0 => httpVersion1P0
  | .v1p1 => httpVersion1P1

/-- A byte that ends neither a target nor a line nor a string. -/
def IsPlain (b : UInt8) : Prop := b ≠ 32 ∧ b ≠ 13 ∧ b ≠ 10 ∧ b ≠ 0

instance (b : UInt8) : Decidable (IsPlain b) := by
  unfold IsPlain
  infer_instance

/-- A request line that the server has to understand. -/
structure RequestLine where
  method : HttpdMethod
  target : List UInt8
  version : HttpVersion
  method_ne : method ≠ .unknown
  target_ne : target ≠ []
  target_plain : ∀ b ∈ target, IsPlain b

namespace RequestLine

variable (r : RequestLine)

/-- The bytes of the line, without its end. -/
def text : List UInt8 := r.method.text ++ 32 :: (r.target ++ 32 :: r.version.text)

/-- The part of the target in front of its first question mark. -/
def url : List UInt8 := r.target.takeWhile (· ≠ 63)

/-- The part of the target behind its first question mark. -/
def args : Option (List UInt8) :=
  if 63 ∈ r.target then some (r.target.drop (r.url.length + 1)) else none

/-- The target has none of the method texts that are tried before the method of the line. -/
def MethodClear : Prop :=
  match r.method with
  | .unknown => False
  | .post => True
  | .get => ¬ httpMethodPost <:+: r.target
  | .put => ¬ httpMethodPost <:+: r.target ∧ ¬ httpMethodGet <:+: r.target
  | .delete =>
    ¬ httpMethodPost <:+: r.target ∧ ¬ httpMethodGet <:+: r.target ∧
      ¬ httpMethodPut <:+: r.target

/-- The target does not start with the version text that the parser goes by. -/
def VersionClear : Prop :=
  ¬ httpVersion1P0 <+: r.target ∧
    (r.version = .v1p1 → httpVersion1P1 <+: r.target → httpVersion1P0 <:+: r.target)

end RequestLine

/-- The parser has found what the request line says: method, URL and arguments. -/
def ParsesLine (r : RequestLine) (s : ParseState) : Prop :=
  s.conn.requestType = r.method ∧
    (∃ u, s.conn.url = some u ∧ StrAt s.mem u r.url) ∧
    match r.args with
    | none => s.conn.getArgs = none
    | some args => ∃ p, s.conn.getArgs = some p ∧ StrAt s.mem p args

namespace RequestLine

variable (r : RequestLine)

/-! ## The method -/

theorem method_text_plain : ∀ b ∈ r.method.text, IsPlain b := by
  cases r.method <;> decide +kernel

theorem version_text_plain : ∀ b ∈ r.version.text, IsPlain b := by
  cases r.version <;> decide +kernel

theorem method_text_length_pos : 0 < r.method.text.length := by
  have h := r.method_ne
  cases hm : r.method with
  | unknown => exact absurd hm h
  | _ => decide

/-- A text without a blank occurs in the line if it occurs in one of the three parts. -/
theorem infix_text {pat : List UInt8} (hblank : 32 ∉ pat) (hne : pat ≠ []) :
    pat <:+: r.text ↔
      pat <:+: r.method.text ∨ pat <:+: r.target ∨ pat <:+: r.version.text := by
  unfold text
  rw [infix_append_sep hblank hne, infix_append_sep hblank hne]

theorem lineMethod_text_iff : lineMethod r.text = r.method ↔ r.MethodClear := by
  have hne := r.method_ne
  have hpost := r.infix_text (show 32 ∉ httpMethodPost by decide) (by decide)
  have hget := r.infix_text (show 32 ∉ httpMethodGet by decide) (by decide)
  have hput := r.infix_text (show 32 ∉ httpMethodPut by decide) (by decide)
  have hdelete := r.infix_text (show 32 ∉ httpMethodDelete by decide) (by decide)
  have hv : ∀ m ∈ [httpMethodPost, httpMethodGet, httpMethodPut, httpMethodDelete],
      ¬ m <:+: r.version.text := by
    cases r.version <;> decide +kernel
  simp only [hv _ (by decide : httpMethodPost ∈ _), hv _ (by decide : httpMethodGet ∈ _),
    hv _ (by decide : httpMethodPut ∈ _), hv _ (by decide : httpMethodDelete ∈ _),
    or_false] at hpost hget hput hdelete
  unfold lineMethod MethodClear
  simp only [findSub_isSome_iff, hpost, hget, hput, hdelete]
  -- a method is looked for in the whole line, in this order, so an earlier one in the target wins
  have h₁ : ¬ httpMethodPost <:+: httpMethodGet := by decide
  have h₂ : ¬ httpMethodPost <:+: httpMethodPut := by decide
  have h₃ : ¬ httpMethodGet <:+: httpMethodPut := by decide
  have h₄ : ¬ httpMethodPost <:+: httpMethodDelete := by decide
  have h₅ : ¬ httpMethodGet <:+: httpMethodDelete := by decide
  have h₆ : ¬ httpMethodPut <:+: httpMethodDelete := by decide
  cases hm : r.method with
  | unknown => exact absurd hm hne
  | post => simp [HttpdMethod.text]
  | get => simp [HttpdMethod.text, h₁]
  | put =>
    by_cases hp : httpMethodPost <:+: r.target <;>
      by_cases hg : httpMethodGet <:+: r.target <;> simp [HttpdMethod.text, h₂, h₃, hp, hg]
  | delete =>
    by_cases hp : httpMethodPost <:+: r.target <;>
      by_cases hg : httpMethodGet <:+: r.target <;>
        by_cases hu : httpMethodPut <:+: r.target <;>
          simp [HttpdMethod.text, h₄, h₅, h₆, hp, hg, hu]

/-- Some method is always found: at least the one that the line starts with. -/
theorem lineMethod_text_ne : lineMethod r.text ≠ .unknown := by
  have hne := r.method_ne
  have hmem : r.method.text <:+: r.text := (List.prefix_append _ _).isInfix
  have hsome := findSub_isSome_iff.mpr hmem
  unfold lineMethod
  cases hm : r.method with
  | unknown => exact absurd hm hne
  | _ =>
    rw [hm] at hsome
    simp only [HttpdMethod.text] at hsome
    split_ifs <;> simp_all

/-! ## The version -/

/-- Where the version that the parser goes by starts, from the target on. -/
def versionOffset : ℕ :=
  ((findSub httpVersion1P0 r.target).or
    (if r.version = .v1p0 then some (r.target.length + 1)
      else findSub httpVersion1P1 r.target)).getD (r.target.length + 1)

theorem findSub_text {pat : List UInt8} (hblank : 32 ∉ pat) (hne : pat ≠ [])
    (hmethod : ¬ pat <:+: r.method.text) :
    findSub pat r.text =
      ((findSub pat r.target).or
        ((findSub pat r.version.text).map (· + (r.target.length + 1)))).map
        (· + (r.method.text.length + 1)) := by
  unfold text
  rw [findSub_append_sep _ _ hblank hne, findSub_eq_none_iff.mpr hmethod, Option.none_or,
    findSub_append_sep _ _ hblank hne]

theorem lineVersion_text :
    lineVersion r.text = some (r.method.text.length + 1 + r.versionOffset) := by
  have hm : ∀ v ∈ [httpVersion1P0, httpVersion1P1], ¬ v <:+: r.method.text := by
    cases r.method <;> decide +kernel
  unfold lineVersion versionOffset
  rw [r.findSub_text (by decide) (by decide) (hm _ (by decide)),
    r.findSub_text (by decide) (by decide) (hm _ (by decide))]
  cases h₀ : findSub httpVersion1P0 r.target with
  | some k =>
    show some (k + (r.method.text.length + 1)) = some (r.method.text.length + 1 + k)
    rw [Nat.add_comm]
  | none =>
    cases hv : r.version with
    | v1p0 =>
      have hself : findSub httpVersion1P0 HttpVersion.v1p0.text = some 0 := by decide
      rw [hself]
      show some (0 + (r.target.length + 1) + (r.method.text.length + 1)) =
        some (r.method.text.length + 1 + (r.target.length + 1))
      congr 1
      omega
    | v1p1 =>
      have hother : findSub httpVersion1P0 HttpVersion.v1p1.text = none := by decide
      have hself : findSub httpVersion1P1 HttpVersion.v1p1.text = some 0 := by decide
      rw [hother, hself]
      cases h₁ : findSub httpVersion1P1 r.target with
      | some k =>
        show some (k + (r.method.text.length + 1)) = some (r.method.text.length + 1 + k)
        rw [Nat.add_comm]
      | none =>
        show some (0 + (r.target.length + 1) + (r.method.text.length + 1)) =
          some (r.method.text.length + 1 + (r.target.length + 1))
        congr 1
        omega

/-- The version stands inside the target or where it belongs. -/
theorem versionOffset_cases :
    r.versionOffset < r.target.length ∨ r.versionOffset = r.target.length + 1 := by
  have hlt : ∀ pat : List UInt8, 0 < pat.length → ∀ k, findSub pat r.target = some k →
      k < r.target.length := by
    intro pat hpat k hk
    have := findSub_add_length_le hk
    omega
  unfold versionOffset
  cases h₀ : findSub httpVersion1P0 r.target with
  | some k => exact Or.inl (hlt _ (by decide) k h₀)
  | none =>
    by_cases hv : r.version = .v1p0
    · rw [if_pos hv]
      exact Or.inr rfl
    · rw [if_neg hv]
      cases h₁ : findSub httpVersion1P1 r.target with
      | some k => exact Or.inl (hlt _ (by decide) k h₁)
      | none => exact Or.inr rfl

theorem versionOffset_pos_iff : 0 < r.versionOffset ↔ r.VersionClear := by
  have hzero : ∀ pat : List UInt8, ∀ k, findSub pat r.target = some k →
      (0 < k ↔ ¬ pat <+: r.target) := by
    intro pat k hk
    rw [← findSub_eq_zero_iff, hk]
    simp [Nat.pos_iff_ne_zero]
  unfold versionOffset VersionClear
  cases h₀ : findSub httpVersion1P0 r.target with
  | some k =>
    have hinf : httpVersion1P0 <:+: r.target := findSub_isSome_iff.mp (by rw [h₀]; rfl)
    show 0 < k ↔ _
    rw [hzero _ k h₀]
    exact ⟨fun h => ⟨h, fun _ _ => hinf⟩, fun h => h.1⟩
  | none =>
    have hinf : ¬ httpVersion1P0 <:+: r.target := findSub_eq_none_iff.mp h₀
    have hpre : ¬ httpVersion1P0 <+: r.target := fun h => hinf h.isInfix
    cases hv : r.version with
    | v1p0 => simp [hpre]
    | v1p1 =>
      cases h₁ : findSub httpVersion1P1 r.target with
      | some k =>
        show 0 < k ↔ _
        rw [hzero _ k h₁]
        simp [hpre, hinf]
      | none =>
        have hpre' : ¬ httpVersion1P1 <+: r.target := fun h =>
          findSub_eq_none_iff.mp h₁ h.isInfix
        simp [hpre, hpre']

/-! ## The target -/

/-- Where the target starts. -/
def targetStart : ℕ := r.method.text.length + 1

/-- The line has neither a line end nor a NUL in it. -/
theorem ne_of_mem_text {b : UInt8} (h : b ∈ r.text) : b ≠ 13 ∧ b ≠ 10 ∧ b ≠ 0 := by
  unfold text at h
  rcases List.mem_append.mp h with h | h
  · exact (r.method_text_plain b h).2
  rcases List.mem_cons.mp h with rfl | h
  · decide
  rcases List.mem_append.mp h with h | h
  · exact (r.target_plain b h).2
  rcases List.mem_cons.mp h with rfl | h
  · decide
  · exact (r.version_text_plain b h).2

theorem cr_notMem_text : 13 ∉ r.text := fun h => (r.ne_of_mem_text h).1 rfl

/-- A line and what follows it are a string. -/
theorem strAt_head {m rest tail : List UInt8} (hrest : 0 ∉ rest)
    (hm : m = r.text ++ crlf ++ rest ++ 0 :: tail) : StrAt m 0 (r.text ++ crlf ++ rest) := by
  refine ⟨fun h => ?_, tail, hm⟩
  rcases List.mem_append.mp h with h | h
  · rcases List.mem_append.mp h with h | h
    · exact (r.ne_of_mem_text h).2.2 rfl
    · exact absurd h (by decide)
  · exact hrest h

theorem length_text :
    r.text.length = r.targetStart + r.target.length + 1 + r.version.text.length := by
  unfold text targetStart
  simp only [List.length_append, List.length_cons]
  omega

section

variable {r} {m rest : List UInt8} (h : StrAt m 0 (r.text ++ crlf ++ rest))

include h

theorem strAt_target :
    StrAt m r.targetStart (r.target ++ 32 :: (r.version.text ++ crlf ++ rest)) := by
  have hlen : r.targetStart ≤ (r.text ++ crlf ++ rest).length := by
    rw [List.length_append, List.length_append, r.length_text]
    omega
  have hadv := h.advance hlen
  have hsplit : r.text ++ crlf ++ rest =
      (r.method.text ++ [32]) ++ (r.target ++ 32 :: (r.version.text ++ crlf ++ rest)) := by
    unfold text
    simp
  rw [Nat.zero_add, hsplit, List.drop_left' (by simp [targetStart])] at hadv
  exact hadv

theorem getElem?_method {i : ℕ} (hi : i < r.method.text.length) :
    ∃ b, m[i]? = some b ∧ b ≠ 32 := by
  have hlt : i < (r.text ++ crlf ++ rest).length := by
    rw [List.length_append, List.length_append, r.length_text, targetStart]
    omega
  have hget := h.getElem?_eq hlt
  rw [Nat.zero_add, text, List.append_assoc, List.append_assoc,
    List.getElem?_append_left hi, List.getElem?_eq_getElem hi] at hget
  exact ⟨_, hget, (r.method_text_plain _ (List.getElem_mem hi)).1⟩

theorem getElem?_method_end : m[r.method.text.length]? = some 32 := by
  have hlt : r.method.text.length < (r.text ++ crlf ++ rest).length := by
    rw [List.length_append, List.length_append, r.length_text, targetStart]
    omega
  have hget := h.getElem?_eq hlt
  rw [Nat.zero_add, text, List.append_assoc, List.append_assoc,
    List.getElem?_append_right (Nat.le_refl _), Nat.sub_self] at hget
  exact hget

theorem getElem?_target {i : ℕ} (hi : i < r.target.length) :
    ∃ b, m[r.targetStart + i]? = some b ∧ b ≠ 32 := by
  have hget := (strAt_target h).getElem?_eq (k := i) (by rw [List.length_append]; omega)
  rw [List.getElem?_append_left hi, List.getElem?_eq_getElem hi] at hget
  exact ⟨_, hget, (r.target_plain _ (List.getElem_mem hi)).1⟩

theorem getElem?_target_end : m[r.targetStart + r.target.length]? = some 32 := by
  have hget := (strAt_target h).getElem?_eq (k := r.target.length)
    (by rw [List.length_append, List.length_cons]; omega)
  rw [List.getElem?_append_right (Nat.le_refl _), Nat.sub_self] at hget
  exact hget

/-- If no version text stands at the start of the target, the path is the target. -/
theorem getHeaderPath_clear (hclear : r.VersionClear) :
    getHeaderPath m 0 = .ok (some r.targetStart) := by
  rw [getHeaderPath_eq h r.cr_notMem_text, r.lineVersion_text]
  have hpos := r.versionOffset_pos_iff.mpr hclear
  have htpos := List.length_pos_of_ne_nil r.target_ne
  have hcases := r.versionOffset_cases
  have hpath : pathBefore m (0 + (r.method.text.length + 1 + r.versionOffset)) =
      .ok r.targetStart := by
    -- the last byte of the word in front of the version
    apply pathBefore_eq (e := r.method.text.length + min r.versionOffset r.target.length)
      (getElem?_method_end h) (by omega) (by omega)
    · intro j hj hje
      obtain ⟨b, hb, hne⟩ := getElem?_target h (i := j - r.targetStart)
        (by unfold targetStart; omega)
      rw [show r.targetStart + (j - r.targetStart) = j by unfold targetStart; omega] at hb
      exact ⟨b, hb, hne⟩
    · intro j hj hjq
      have hend := getElem?_target_end h
      rwa [show j = r.targetStart + r.target.length by unfold targetStart; omega]
  show some <$> pathBefore m _ = _
  rw [hpath]
  rfl

/-- If one stands there, the way back to the target ends in front of the head. -/
theorem getHeaderPath_not_clear (hclear : ¬ r.VersionClear) :
    getHeaderPath m 0 = .error .read := by
  rw [getHeaderPath_eq h r.cr_notMem_text, r.lineVersion_text]
  have hpos := r.method_text_length_pos
  have hzero : r.versionOffset = 0 := by
    have := mt r.versionOffset_pos_iff.mp hclear
    omega
  have hpath : pathBefore m (0 + (r.method.text.length + 1 + r.versionOffset)) =
      .error .read := by
    apply pathBefore_error (e := r.method.text.length - 1) (by omega)
    · intro j hj
      exact getElem?_method h (by omega)
    · intro j hj hjq
      rw [show j = r.method.text.length by omega]
      exact getElem?_method_end h
  show some <$> pathBefore m _ = _
  rw [hpath]
  rfl

end

end RequestLine

/-! ## The parser on a request line -/

section

variable {r : RequestLine} {rest : List UInt8} {s : ParseState}

/-- Where the first header line starts. -/
def RequestLine.secondLine (r : RequestLine) : ℕ := r.text.length + crlf.length

/-- The line is found to have the method that its text is taken for, and if the way back to the
target leads out of the memory there is no URL. -/
theorem parseRequestLine_not_clear (h : StrAt s.mem 0 (r.text ++ crlf ++ rest))
    (hclear : ¬ r.VersionClear) :
    exec parseRequestLine s =
      (.error .read,
        { s with conn := { s.conn with url := none, requestType := lineMethod r.text } }) := by
  unfold parseRequestLine
  simp only [exec_bind, exec_setConn, exec_readMem, strstr_crlf_eq h r.cr_notMem_text,
    getHeaderMethod_eq h r.cr_notMem_text, if_neg r.lineMethod_text_ne,
    RequestLine.getHeaderPath_not_clear h hclear]

/-- Otherwise the target is cut at its first question mark and its end. -/
theorem parseRequestLine_clear (h : StrAt s.mem 0 (r.text ++ crlf ++ rest))
    (hclear : r.VersionClear) :
    ∃ s', exec parseRequestLine s = (.ok (some r.secondLine), s') ∧
      s'.conn.requestType = lineMethod r.text ∧
      s'.conn.url = some r.targetStart ∧
      StrAt s'.mem r.targetStart r.url ∧
      s'.mem.drop r.text.length = s.mem.drop r.text.length ∧
      match r.args with
      | none => s'.conn.getArgs = none
      | some args => ∃ p, s'.conn.getArgs = some p ∧ StrAt s'.mem p args ∧
          p + args.length < r.secondLine := by
  have htarget := RequestLine.strAt_target h
  have hplain : 32 ∉ r.target := fun hm => (r.target_plain _ hm).1 rfl
  have hblank : strchr s.mem r.targetStart 32 = .ok (some (r.targetStart + r.target.length)) := by
    rw [strchr_eq htarget (by decide), show [(32 : UInt8)] = 32 :: [] from rfl,
      show r.target ++ 32 :: (r.version.text ++ crlf ++ rest) =
        r.target ++ (32 :: [] ++ (r.version.text ++ crlf ++ rest)) by simp,
      findSub_of_head_notMem _ _ hplain]
    rfl
  have hend := (List.getElem?_eq_some_iff.mp (RequestLine.getElem?_target_end h)).1
  have hlt : r.targetStart + r.target.length < r.text.length := by
    rw [r.length_text]
    omega
  have hcut : StrAt (s.mem.set (r.targetStart + r.target.length) 0) r.targetStart r.target := by
    have := htarget.set_mem (k := r.target.length) (by rw [List.length_append]; omega)
    rwa [List.take_left] at this
  have hmark : strstr (s.mem.set (r.targetStart + r.target.length) 0) r.targetStart (ascii "?") =
      .ok (if 63 ∈ r.target then some (r.targetStart + r.url.length) else none) := by
    rw [strstr_eq hcut (by decide) (by decide), show ascii "?" = [63] from rfl,
      findSub_singleton]
    unfold RequestLine.url
    split_ifs <;> rfl
  unfold parseRequestLine
  simp only [exec_bind, exec_setConn, exec_readMem, strstr_crlf_eq h r.cr_notMem_text,
    getHeaderMethod_eq h r.cr_notMem_text, if_neg r.lineMethod_text_ne,
    RequestLine.getHeaderPath_clear h hclear, hblank, exec_poke, if_pos hend, hmark]
  unfold RequestLine.args
  by_cases hq : 63 ∈ r.target
  · -- the question mark
    have hurl : r.url.length < r.target.length := by
      unfold RequestLine.url
      have hpre : r.target.takeWhile (fun b => decide (b ≠ 63)) <+: r.target :=
        List.takeWhile_prefix _
      refine Nat.lt_of_le_of_ne hpre.length_le fun heq => ?_
      rw [← hpre.eq_of_length heq] at hq
      simpa using List.mem_takeWhile_imp hq
    have hlen : r.targetStart + r.url.length <
        (s.mem.set (r.targetStart + r.target.length) 0).length := by
      rw [List.length_set]
      omega
    have hcutUrl := hcut.set_mem (k := r.url.length) (by omega)
    have htake : r.target.take r.url.length = r.url :=
      (List.prefix_iff_eq_take.mp (List.takeWhile_prefix _)).symm
    have hargs := (hcut.advance (k := r.url.length + 1) (by omega)).set_before
      (q := r.targetStart + r.url.length) (by omega) 0
    simp only [if_pos hq, exec_poke, hlen, if_true, exec_bind, exec_setConn, exec_pure]
    refine ⟨_, by rw [Nat.zero_add]; rfl, rfl, rfl, ?_, ?_, _, rfl, ?_, ?_⟩
    · rw [htake] at hcutUrl
      exact hcutUrl
    · show ((s.mem.set _ 0).set _ 0).drop _ = _
      rw [List.drop_set_of_lt (by omega), List.drop_set_of_lt hlt]
    · rw [Nat.add_assoc]
      exact hargs
    · rw [List.length_drop]
      unfold RequestLine.secondLine
      rw [r.length_text]
      omega
  · have hurl : r.url = r.target := by
      unfold RequestLine.url
      rw [List.takeWhile_eq_self_iff]
      intro b hb
      simp only [decide_eq_true_eq]
      rintro rfl
      exact hq hb
    simp only [if_neg hq, exec_bind, exec_setConn, exec_pure]
    refine ⟨_, by rw [Nat.zero_add]; rfl, rfl, rfl, ?_, ?_, rfl⟩
    · rw [hurl]
      exact hcut
    · show (s.mem.set _ 0).drop _ = _
      rw [List.drop_set_of_lt hlt]

end

/-! ## The headers leave it alone -/

/-- A header value stands behind the place where its lookup started. -/
theorem headerValueLoop_le {m name : List UInt8} (fuel : ℕ) {p v : ℕ}
    (h : headerValueLoop m name fuel p = .ok (some v)) : p ≤ v := by
  induction fuel generalizing p with
  | zero => cases h
  | succ fuel ih =>
    rw [headerValueLoop] at h
    obtain ⟨_ | q, hq, h⟩ := bind_eq_ok.mp h
    · cases h
    have hpq := strstr_le hq
    obtain ⟨_ | _, hb, h⟩ := bind_eq_ok.mp h
    · obtain ⟨_ | e, he, h⟩ := bind_eq_ok.mp h
      · cases h
      have := strstr_le he
      have := ih h
      omega
    · obtain ⟨q', hq', h⟩ := bind_eq_ok.mp h
      have := skipByte_le hq'
      obtain ⟨c, -, h⟩ := bind_eq_ok.mp h
      by_cases hc : c = 58
      · rw [if_neg (not_not.mpr hc)] at h
        obtain ⟨v', hv', h⟩ := bind_eq_ok.mp h
        have := skipByte_le hv'
        cases h
        omega
      · rw [if_pos hc] at h
        have := ih h
        omega

theorem keyEnd_le {m : List UInt8} {key e : ℕ} (h : keyEnd m key = .ok e) : key ≤ e := by
  obtain ⟨_ | e', he, h⟩ := bind_eq_ok.mp h
  · obtain ⟨n, -, h⟩ := bind_eq_ok.mp h
    cases h
    exact Nat.le_add_right _ _
  · cases h
    exact strstr_le he

/-- The record without the fields that the headers of an ordinary request determine. -/
def Conn.headerless (c : Conn) : Conn :=
  { c with
    connetionMode := .close
    connectionKeepAliveTime := 0
    isLargeData := false
    dataLen := 0
    dataBuff := none
    acceptEncoding := [] }

/-- What the headers of an ordinary request leave alone. -/
def headerFrame (s : ParseState) : List UInt8 × Conn := (s.mem, s.conn.headerless)

/-- What the headers of an ordinary request do not touch. -/
def plainFields (s : ParseState) :
    List UInt8 × (HttpdMethod × Option ℕ × Option ℕ) × Bool × Option ℕ :=
  (s.mem, (s.conn.requestType, s.conn.url, s.conn.getArgs), s.conn.websocketClient,
    s.conn.clientKey)

theorem keeps_copyValue (size v e : ℕ) : Keeps headerFrame (copyValue size v e) :=
  Keeps.bind (Keeps.update fun _ => rfl) fun _ => Keeps.viewE _

theorem keeps_parseKeepAlive (secondLine connStr : ℕ) :
    Keeps headerFrame (parseKeepAlive secondLine connStr) := by
  unfold parseKeepAlive
  refine Keeps.bind (Keeps.update fun _ => rfl) fun _ => ?_
  refine Keeps.bind (Keeps.viewE _) fun keepAlive => ?_
  apply Keeps.ite
  · refine Keeps.bind (Keeps.update fun _ => rfl) fun _ => ?_
    refine Keeps.bind (Keeps.viewE _) fun line => ?_
    split
    · refine Keeps.bind (keeps_copyValue _ _ _) fun buf => ?_
      refine Keeps.bind (Keeps.lift _) fun time => ?_
      refine Keeps.bind (Keeps.update fun _ => rfl) fun _ => ?_
      exact Keeps.update fun _ => rfl
    · refine Keeps.bind (Keeps.update fun _ => rfl) fun _ => ?_
      exact Keeps.update fun _ => rfl
  · exact Keeps.pure _

theorem keeps_parseContentLength (secondLine : ℕ) :
    Keeps headerFrame (parseContentLength secondLine) := by
  unfold parseContentLength
  refine Keeps.bind (Keeps.viewE _) fun line => ?_
  split
  · refine Keeps.bind (keeps_copyValue _ _ _) fun buf => ?_
    refine Keeps.bind (Keeps.lift _) fun len => ?_
    exact Keeps.update fun _ => rfl
  · exact Keeps.pure _

theorem keeps_parseAcceptEncoding (secondLine : ℕ) :
    Keeps headerFrame (parseAcceptEncoding secondLine) := by
  unfold parseAcceptEncoding
  refine Keeps.bind (Keeps.viewE _) fun line => ?_
  split
  · refine Keeps.bind (keeps_copyValue _ _ _) fun buf => ?_
    exact Keeps.update fun _ => rfl
  · exact Keeps.pure _

theorem keeps_headerFrame_parsePlain (secondLine connStr : ℕ) :
    Keeps headerFrame (parsePlain secondLine connStr) := by
  unfold parsePlain
  refine Keeps.bind (keeps_parseKeepAlive _ _) fun _ => ?_
  refine Keeps.bind (keeps_parseContentLength _) fun _ => ?_
  refine Keeps.bind (keeps_parseAcceptEncoding _) fun _ => ?_
  refine Keeps.bind (Keeps.viewE _) fun _ => ?_
  exact Keeps.pure _

theorem keeps_parsePlain (secondLine connStr : ℕ) :
    Keeps plainFields (parsePlain secondLine connStr) :=
  (keeps_headerFrame_parsePlain secondLine connStr).comp fun t =>
    (t.1, (t.2.requestType, t.2.url, t.2.getArgs), t.2.websocketClient, t.2.clientKey)

/-- What the request line has determined: the head up to the second line and the fields that
point into it. -/
def lineFields (secondLine : ℕ) (s : ParseState) :
    List UInt8 × HttpdMethod × Option ℕ × Option ℕ :=
  (s.mem.take secondLine, s.conn.requestType, s.conn.url, s.conn.getArgs)

theorem keeps_poke {secondLine p : ℕ} (hp : secondLine ≤ p) (b : UInt8) :
    Keeps (lineFields secondLine) (poke p b) := by
  intro s
  rw [exec_poke]
  split
  · show (List.take secondLine (s.mem.set p b), _) = (List.take secondLine s.mem, _)
    rw [List.take_set_of_le hp]
  · rfl

/-- The WebSocket branch only stores behind the second line. -/
theorem keeps_parseUpgrade (secondLine : ℕ) :
    Keeps (lineFields secondLine) (parseUpgrade secondLine) := by
  unfold parseUpgrade
  refine Keeps.bind (Keeps.viewE _) fun upgradeWs => ?_
  split
  · exact Keeps.pure _
  · refine Keeps.bind (Keeps.viewE _) fun websocket => ?_
    apply Keeps.ite
    · apply Keeps.bind_of (Keeps.viewE _) (Q := fun key => ∀ k, key = some k → secondLine ≤ k)
      · rintro s key s' h k rfl
        exact headerValueLoop_le _ (congrArg Prod.fst h)
      · intro key hkey
        split
        · exact Keeps.pure _
        · next k =>
          apply Keeps.bind_of (Keeps.viewE _) (Q := fun e => secondLine ≤ e)
          · intro s e s' h
            exact (hkey k rfl).trans (keyEnd_le (congrArg Prod.fst h))
          · intro e he
            refine Keeps.bind (keeps_poke he 0) fun _ => ?_
            refine Keeps.bind (Keeps.update fun _ => rfl) fun _ => ?_
            refine Keeps.bind (Keeps.update fun _ => rfl) fun _ => ?_
            exact Keeps.pure _
    · exact Keeps.pure _

theorem keeps_parseHeaderLines (secondLine : ℕ) :
    Keeps (lineFields secondLine) (parseHeaderLines secondLine) := by
  unfold parseHeaderLines
  refine Keeps.bind (Keeps.viewE _) fun host => ?_
  refine Keeps.bind (Keeps.update fun _ => rfl) fun _ => ?_
  refine Keeps.bind (Keeps.viewE _) fun connStr => ?_
  split
  · exact Keeps.pure _
  · refine Keeps.bind (Keeps.viewE _) fun upgrade => ?_
    apply Keeps.ite
    · exact keeps_parseUpgrade _
    · exact (keeps_parsePlain _ _).comp fun t => (t.1.take secondLine, t.2.1)

/-! ## The whole head -/

section

variable {r : RequestLine} {rest : List UInt8} {s : ParseState}

/-- A string in front of the second line is still there after the headers. -/
theorem strAt_parseHeaderLines {secondLine p : ℕ} {str : List UInt8} (h : StrAt s.mem p str)
    (hlt : p + str.length < secondLine) :
    StrAt (exec (parseHeaderLines secondLine) s).2.mem p str :=
  h.congr_take hlt (congrArg Prod.fst (keeps_parseHeaderLines secondLine s))

theorem RequestLine.url_length_lt (r : RequestLine) :
    r.targetStart + r.url.length < r.secondLine := by
  have hle : r.url.length ≤ r.target.length := (List.takeWhile_prefix _).length_le
  unfold RequestLine.secondLine
  rw [r.length_text]
  omega

/-- The parser gets a request line right if and only if its target contains no method text that
is tried before its own method and does not start with the version text that the parser goes
by, whatever follows the line. -/
theorem parseInMsgHeaders_line_iff (r : RequestLine) (rest tail : List UInt8) (hrest : 0 ∉ rest)
    (s : ParseState) (hs : s.mem = r.text ++ crlf ++ rest ++ 0 :: tail) :
    ParsesLine r (exec parseInMsgHeaders s).2 ↔ r.MethodClear ∧ r.VersionClear := by
  have h : StrAt s.mem 0 (r.text ++ crlf ++ rest) := r.strAt_head hrest hs
  by_cases hclear : r.VersionClear
  · obtain ⟨s', hexec, hmethod, hurl, hustr, -, hargs⟩ := parseRequestLine_clear h hclear
    have hrun : exec parseInMsgHeaders s = exec (parseHeaderLines r.secondLine) s' :=
      exec_bind_ok hexec
    have hkeep := keeps_parseHeaderLines r.secondLine s'
    unfold lineFields at hkeep
    simp only [Prod.mk.injEq] at hkeep
    obtain ⟨-, hkm, hku, hka⟩ := hkeep
    rw [hrun]
    unfold ParsesLine
    rw [hkm, hmethod, hku, hurl, hka, r.lineMethod_text_iff]
    constructor
    · exact fun hp => ⟨hp.1, hclear⟩
    · refine fun hm => ⟨hm.1, ⟨_, rfl, strAt_parseHeaderLines hustr r.url_length_lt⟩, ?_⟩
      cases ha : r.args with
      | none => rw [ha] at hargs; exact hargs
      | some args =>
        rw [ha] at hargs
        obtain ⟨p, hp, hpstr, hlt⟩ := hargs
        exact ⟨p, hp, strAt_parseHeaderLines hpstr hlt⟩
  · have hrun : exec parseInMsgHeaders s = (.error .read, _) :=
      exec_bind_error (parseRequestLine_not_clear h hclear)
    constructor
    · rintro ⟨-, ⟨u, hu, -⟩, -⟩
      rw [hrun] at hu
      cases hu
    · exact fun hc => absurd hc.2 hclear

/-- `GET /index.html?lang=en HTTP/1.1`. -/
def indexLine : RequestLine where
  method := .get
  target := ascii "/index.html?lang=en"
  version := .v1p1
  method_ne := by decide
  target_ne := by decide
  target_plain := by decide +kernel

theorem parseInMsgHeaders_line_index :
    ParsesLine indexLine (exec parseInMsgHeaders
      (.start .fresh (indexLine.text ++ crlf ++ ascii "Host: POST\r\n\r\n" ++ 0 :: [0]))).2 :=
  (parseInMsgHeaders_line_iff indexLine (ascii "Host: POST\r\n\r\n") [0] (by decide) _ rfl).mpr
    ⟨by show ¬ _ <:+: _; decide, by decide, by decide⟩

/-- `GET /POST HTTP/1.1`. -/
def postTargetLine : RequestLine where
  method := .get
  target := ascii "/POST"
  version := .v1p1
  method_ne := by decide
  target_ne := by decide
  target_plain := by decide +kernel

/-- A `GET` for a target with `POST` in it is taken for a `POST`. -/
theorem parseInMsgHeaders_post_target :
    ¬ ParsesLine postTargetLine (exec parseInMsgHeaders
      (.start .fresh (postTargetLine.text ++ crlf ++ crlf ++ 0 :: [0]))).2 := by
  intro h
  have hmethod : (exec parseInMsgHeaders
      (.start .fresh (postTargetLine.text ++ crlf ++ crlf ++ 0 :: [0]))).2.conn.requestType =
        .post := by decide
  have hget := h.1
  rw [hmethod] at hget
  cases hget

end

end WLink.Httpd
