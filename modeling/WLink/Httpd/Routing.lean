import WLink.Httpd.Registry
import WLink.Httpd.DispatchTheorems

/-!
# Routing

`HTTPd_isMatch_CGI` with the arguments of the callbacks, which `isMatchCgi` leaves out. It
compares a pattern with a URL only when both have the same length, also when the pattern ends in
a star: `routesRight_iff`.
-/

namespace WLink.Httpd

open WLink.Lib

/-- `cgi` and `cgiArg` of a connection. -/
structure CgiSlot where
  cgi : Option ℕ
  cgiArg : Option ℕ
deriving DecidableEq, Repr

def UrlEntry.slot (e : UrlEntry) : CgiSlot := ⟨some e.cgiCb, e.cgiArg⟩

/-- The loop over one table. -/
def searchEntries (table : List UrlEntry) (url : List UInt8) (slot : CgiSlot) : Bool × CgiSlot :=
  match table.find? (·.isMatch url) with
  | some e => (true, e.slot)
  | none => (false, slot)

/-- `HTTPd_isMatch_CGI`: the registered entries come last and overwrite what was found before. -/
def httpdIsMatchCgi (builtInUrls registered : List UrlEntry) (url : List UInt8) (slot : CgiSlot) :
    Bool × CgiSlot :=
  let (isBuiltIn, slot) := searchEntries builtInUrls url slot
  let (isRegistered, slot) := searchEntries registered url slot
  (isBuiltIn || isRegistered, slot)

/-! ## What routing is to do -/

/-- The pattern is the URL, or it ends in a star and the rest of it is a prefix of the URL. -/
def UrlItem.Matches (item : UrlItem) (url : List UInt8) : Prop :=
  item.url = url ∨ item.url.getLast? = some 42 ∧ item.url.dropLast <+: url

instance (item : UrlItem) (url : List UInt8) : Decidable (item.Matches url) :=
  inferInstanceAs (Decidable (_ ∨ _ ∧ _))

/-- The first registered entry with a property, or the first built-in one. -/
def firstEntry (p : UrlEntry → Bool) (builtInUrls registered : List UrlEntry) : Option UrlEntry :=
  (registered.find? p).or (builtInUrls.find? p)

/-- A URL is routed if and only if a pattern matches it, and it goes to the first one. -/
def RoutesRight (builtInUrls registered : List UrlEntry) (url : List UInt8) (slot : CgiSlot) :
    Prop :=
  ((httpdIsMatchCgi builtInUrls registered url slot).1 = true ↔
      ∃ e ∈ builtInUrls ++ registered, e.Matches url) ∧
    ∀ e, firstEntry (fun e => e.Matches url) builtInUrls registered = some e →
      (httpdIsMatchCgi builtInUrls registered url slot).2 = e.slot

/-- The code's comparison is a match between texts of the same length. -/
theorem UrlItem.isMatch_iff (item : UrlItem) (url : List UInt8) :
    item.isMatch url = true ↔ item.Matches url ∧ item.url.length = url.length := by
  unfold UrlItem.isMatch UrlItem.Matches
  rw [Bool.and_eq_true, Bool.or_eq_true, Bool.and_eq_true, decide_eq_true_iff, decide_eq_true_iff,
    decide_eq_true_iff, decide_eq_true_iff, and_comm]
  refine and_congr_left fun hlen => or_congr Iff.rfl (and_congr Iff.rfl ?_)
  rw [List.dropLast_eq_take, List.prefix_iff_eq_take, List.length_take,
    Nat.min_eq_left (Nat.sub_le _ _)]

theorem firstEntry_isSome_iff (p : UrlEntry → Bool) (builtInUrls registered : List UrlEntry) :
    (firstEntry p builtInUrls registered).isSome = true ↔
      ∃ e ∈ builtInUrls ++ registered, p e = true := by
  unfold firstEntry
  rw [Option.isSome_or, Bool.or_eq_true, List.find?_isSome, List.find?_isSome, or_comm]
  simp only [List.mem_append, or_and_right, exists_or]

/-- What the code does: it goes to the first entry that it takes for a match. -/
theorem httpdIsMatchCgi_eq (builtInUrls registered : List UrlEntry) (url : List UInt8)
    (slot : CgiSlot) :
    httpdIsMatchCgi builtInUrls registered url slot =
      ((firstEntry (·.isMatch url) builtInUrls registered).isSome,
        ((firstEntry (·.isMatch url) builtInUrls registered).map UrlEntry.slot).getD slot) := by
  unfold httpdIsMatchCgi searchEntries firstEntry
  cases builtInUrls.find? (·.isMatch url) with
  | none =>
    cases registered.find? (·.isMatch url) with
    | none => rfl
    | some e => rfl
  | some e' =>
    cases registered.find? (·.isMatch url) with
    | none => rfl
    | some e => rfl

/-- Without the arguments it is the function that the dispatcher uses. -/
theorem httpdIsMatchCgi_matchCgi (builtInUrls registered : List UrlEntry) (url : List UInt8)
    (slot : CgiSlot) :
    (httpdIsMatchCgi builtInUrls registered url slot).1 =
        (matchCgi ⟨builtInUrls.map (·.toUrlItem), registered.map (·.toUrlItem)⟩ url).isSome ∧
      (httpdIsMatchCgi builtInUrls registered url slot).2.cgi =
        (matchCgi ⟨builtInUrls.map (·.toUrlItem), registered.map (·.toUrlItem)⟩ url).or
          slot.cgi := by
  have hmatch : matchCgi ⟨builtInUrls.map (·.toUrlItem), registered.map (·.toUrlItem)⟩ url =
      (firstEntry (·.isMatch url) builtInUrls registered).map (·.cgiCb) := by
    unfold matchCgi firstEntry
    rw [List.find?_map, List.find?_map, Option.map_or, Option.map_map, Option.map_map]
    rfl
  rw [hmatch, httpdIsMatchCgi_eq]
  cases firstEntry (·.isMatch url) builtInUrls registered with
  | none => exact ⟨rfl, rfl⟩
  | some e => exact ⟨rfl, rfl⟩

/-- A URL is routed as it should be exactly if no pattern matches it, or the first of the patterns
that match it and have its length carries the callback and the argument of the first one that
matches it at all. -/
theorem routesRight_iff (builtInUrls registered : List UrlEntry) (url : List UInt8)
    (slot : CgiSlot) :
    RoutesRight builtInUrls registered url slot ↔
      ∀ e, firstEntry (fun e => e.Matches url) builtInUrls registered = some e →
        ∃ e', firstEntry (fun e => e.Matches url ∧ e.url.length = url.length) builtInUrls
            registered = some e' ∧ e'.cgiCb = e.cgiCb ∧ e'.cgiArg = e.cgiArg := by
  have hsame : (fun e : UrlEntry => decide (e.Matches url ∧ e.url.length = url.length)) =
      fun e => e.isMatch url := by
    funext e
    rw [Bool.eq_iff_iff, decide_eq_true_iff]
    exact (UrlItem.isMatch_iff e.toUrlItem url).symm
  have hany := firstEntry_isSome_iff (fun e => e.Matches url) builtInUrls registered
  simp only [decide_eq_true_iff] at hany
  have hslot : ∀ e e' : UrlEntry, e'.slot = e.slot ↔ e'.cgiCb = e.cgiCb ∧ e'.cgiArg = e.cgiArg := by
    intro e e'
    unfold UrlEntry.slot
    rw [CgiSlot.mk.injEq, Option.some.injEq]
  unfold RoutesRight
  rw [httpdIsMatchCgi_eq, hsame, ← hany]
  simp only
  cases hroute : firstEntry (fun e => e.Matches url) builtInUrls registered with
  | none =>
    have hnone : (firstEntry (·.isMatch url) builtInUrls registered).isSome ≠ true := by
      intro h
      obtain ⟨e, he, hmatch⟩ := (firstEntry_isSome_iff _ _ _).mp h
      have hsome := hany.mpr ⟨e, he, ((UrlItem.isMatch_iff e.toUrlItem url).mp hmatch).1⟩
      rw [hroute] at hsome
      exact Bool.false_ne_true hsome
    exact iff_of_true ⟨iff_of_false hnone Bool.false_ne_true, nofun⟩ nofun
  | some e =>
    cases hcode : firstEntry (·.isMatch url) builtInUrls registered with
    | none =>
      refine iff_of_false ?_ ?_
      · rintro ⟨hiff, -⟩
        exact Bool.false_ne_true (hiff.mpr rfl)
      · intro h
        obtain ⟨e', he', -⟩ := h e rfl
        exact nomatch he'
    | some e' =>
      constructor
      · rintro ⟨-, h⟩ e₀ he₀
        exact ⟨e', rfl, (hslot e₀ e').mp (h e₀ he₀)⟩
      · intro h
        refine ⟨Iff.rfl, fun e₀ he₀ => ?_⟩
        obtain ⟨e'', he'', hsame⟩ := h e₀ he₀
        obtain rfl := Option.some.inj he''
        exact (hslot e₀ e').mpr hsame

/-- The URL of the twelfth LED is one byte longer than its pattern. -/
theorem not_routesRight_led12 :
    ¬ RoutesRight [⟨⟨ascii "/Debug", 0⟩, none⟩] [⟨⟨ascii "/LED_PWM/*", 1⟩, none⟩]
      (ascii "/LED_PWM/12") ⟨none, none⟩ := by
  rintro ⟨hiff, -⟩
  have hmatches : ∃ e ∈ ([⟨⟨ascii "/Debug", 0⟩, none⟩] ++ [⟨⟨ascii "/LED_PWM/*", 1⟩, none⟩] :
      List UrlEntry), e.Matches (ascii "/LED_PWM/12") := by decide +kernel
  have hnot : ¬ (httpdIsMatchCgi [⟨⟨ascii "/Debug", 0⟩, none⟩]
      [⟨⟨ascii "/LED_PWM/*", 1⟩, none⟩] (ascii "/LED_PWM/12") ⟨none, none⟩).1 = true := by
    decide +kernel
  exact hnot (hiff.mpr hmatches)

end WLink.Httpd
