import WLink.Led.Agreement
import WLink.Httpd.Routing

/-!
# The routes of the LEDs

`Neon_APP_Device_Init` registers three patterns whose last part names an LED. All three handlers
take the number from the text behind `/LED_PWM/`, which for two of them is not a number, and what
is no number counts as 0: `actsRight_iff`.
-/

namespace WLink.Led

open WLink.Lib WLink.Misc WLink.Httpd CString

/-- The routes with a number in the URL. -/
inductive LedRoute
  | any
  | level
  | onOff
deriving DecidableEq, Repr

def LedRoute.pattern : LedRoute → List UInt8
  | .any => ascii "/LED_PWM/*"
  | .level => ascii "/LED_PWM/Level/*"
  | .onOff => ascii "/LED_PWM/On_Off/*"

/-- The part of the pattern before the star. -/
def LedRoute.fixed : LedRoute → List UInt8
  | .any => ascii "/LED_PWM/"
  | .level => ascii "/LED_PWM/Level/"
  | .onOff => ascii "/LED_PWM/On_Off/"

/-- The number of the callback in the tables. -/
def LedRoute.cgiCb : LedRoute → ℕ
  | .any => 3
  | .level => 4
  | .onOff => 5

/-- A handler of the LED layer: for a parser, the allocation of the answer and the LEDs. -/
abbrev LedHandler := (List UInt8 → Option CJson) → Bool → (ℕ → LedPwmStatus) → CgiRequest →
  CgiReply × List LedCall

def LedRoute.handler : LedRoute → LedHandler
  | .any => ledPwmCgiLedAnyNumber
  | .level => ledPwmCgiLedLevelAnyNumber
  | .onOff => ledPwmCgiLedOnOffAnyNumber

/-- `builtInUrls` -/
def builtInUrls : List UrlEntry := [⟨⟨ascii "/Debug", 0⟩, none⟩]

/-- What `Neon_APP_Device_Init` registers. -/
def ledEntries : List UrlEntry :=
  [⟨⟨ascii "/LED_PWM", 1⟩, none⟩, ⟨⟨ascii "/LED_PWM/Num", 2⟩, none⟩,
    ⟨⟨LedRoute.any.pattern, LedRoute.any.cgiCb⟩, none⟩,
    ⟨⟨LedRoute.level.pattern, LedRoute.level.cgiCb⟩, none⟩,
    ⟨⟨LedRoute.onOff.pattern, LedRoute.onOff.cgiCb⟩, none⟩]

/-- The URL is handled through the route. -/
def LedRoute.Handles (r : LedRoute) (url : List UInt8) (slot : CgiSlot) : Prop :=
  httpdIsMatchCgi builtInUrls ledEntries url slot = (true, ⟨some r.cgiCb, none⟩)

/-- With this URL the handler reads and changes the LED `n` and no other: the answer depends on
this LED only, all calls are for it, a `GET` shows it and a `POST` that is accepted changes it. -/
structure ActsOn (n : ℕ) (handler : LedHandler) (url : List UInt8) : Prop where
  reads : ∀ parse memOk led led' method data, led n = led' n →
    handler parse memOk led ⟨some url, method, data⟩ =
      handler parse memOk led' ⟨some url, method, data⟩
  changes : ∀ parse memOk led method data,
    ∀ call ∈ (handler parse memOk led ⟨some url, method, data⟩).2, ∀ i ≠ n, call.on i = .none
  shows : ∀ parse led data, ∃ fields, (handler parse true led ⟨some url, .get, data⟩).1 =
    .json 200 ((ascii "led_index", .number n) :: fields)
  accepts : ∀ parse memOk led data fields,
    (handler parse memOk led ⟨some url, .post, data⟩).1 = .json 201 fields →
      ∃ call ∈ (handler parse memOk led ⟨some url, .post, data⟩).2, call.on n ≠ .none

/-- The handler finds nothing, and no LED is read or changed. -/
def FindsNothing (handler : LedHandler) (url : List UInt8) : Prop :=
  ∀ parse memOk led method data,
    handler parse memOk led ⟨some url, method, data⟩ = (.notFound, [])

/-- The text behind the fixed part names the LED that is read or changed; if it names none,
nothing is found. -/
def ActsRight (r : LedRoute) (url : List UInt8) : Prop :=
  (∀ n < maxNumOfLedPwmSw, url.drop r.fixed.length = decimal n → ActsOn n r.handler url) ∧
    ((∀ n < maxNumOfLedPwmSw, url.drop r.fixed.length ≠ decimal n) → FindsNothing r.handler url)

/-- The texts behind the fixed part with which the code gets it right. -/
def LedRoute.TailOk (r : LedRoute) (tail : List UInt8) : Prop :=
  match r with
  | .any => ∃ c, tail = [c] ∧ isDigit c = true
  | .level | .onOff => tail = ascii "0"

/-! ## The URLs of a route -/

theorem firstEntry_mem {p : UrlEntry → Bool} {builtIn registered : List UrlEntry} {e : UrlEntry}
    (h : firstEntry p builtIn registered = some e) : e ∈ registered ++ builtIn ∧ p e = true := by
  rcases Option.or_eq_some_iff.mp h with h | ⟨-, h⟩
  · exact ⟨List.mem_append_left _ (List.mem_of_find?_eq_some h), List.find?_some h⟩
  · exact ⟨List.mem_append_right _ (List.mem_of_find?_eq_some h), List.find?_some h⟩

theorem LedRoute.pattern_eq (r : LedRoute) : r.pattern = r.fixed ++ [42] := by
  cases r with
  | any => decide
  | level => decide
  | onOff => decide

/-- A URL of the route has one byte behind the fixed part. -/
theorem LedRoute.Handles.eq {r : LedRoute} {url : List UInt8} {slot : CgiSlot}
    (h : r.Handles url slot) : ∃ c, url = r.fixed ++ [c] := by
  unfold LedRoute.Handles at h
  rw [httpdIsMatchCgi_eq] at h
  obtain ⟨hsome, hslot⟩ := Prod.mk.inj h
  obtain ⟨e, he⟩ := Option.isSome_iff_exists.mp hsome
  rw [he] at hslot
  have hcgi : e.cgiCb = r.cgiCb := Option.some.inj (congrArg CgiSlot.cgi hslot)
  obtain ⟨hmem, hmatch⟩ := firstEntry_mem he
  have hpattern : e.url = r.pattern := by
    have hall : ∀ e ∈ ledEntries ++ builtInUrls, ∀ r : LedRoute, e.cgiCb = r.cgiCb →
        e.url = r.pattern := by
      intro e he r
      cases r with
      | any => revert e he; decide +kernel
      | level => revert e he; decide +kernel
      | onOff => revert e he; decide +kernel
    exact hall e hmem r hcgi
  obtain ⟨hmatches, hlen⟩ := (UrlItem.isMatch_iff e.toUrlItem url).mp hmatch
  rw [hpattern, r.pattern_eq] at hlen
  have hprefix : r.fixed <+: url := by
    rcases hmatches with heq | ⟨-, hpre⟩
    · rw [← heq, hpattern, r.pattern_eq]
      exact List.prefix_append _ _
    · rw [hpattern, r.pattern_eq, List.dropLast_concat] at hpre
      exact hpre
  obtain ⟨rest, rfl⟩ := hprefix
  rw [List.length_append, List.length_append] at hlen
  obtain ⟨c, rfl⟩ := List.length_eq_one_iff.mp (Nat.add_left_cancel hlen).symm
  exact ⟨c, rfl⟩

/-! ## The handlers -/

theorem pathStartsWith_append (start rest : List UInt8) :
    httpdCgiPathStartsWith (some (start ++ rest)) start = some rest := by
  have hprefix : start.isPrefixOf (start ++ rest) = true :=
    List.isPrefixOf_iff_prefix.mpr (List.prefix_append _ _)
  unfold httpdCgiPathStartsWith
  simp only
  rw [if_pos hprefix, List.drop_left]

/-- The `POST` branch makes calls for the LED it is given, and for no other. -/
def PostActs (post : PostBody) : Prop :=
  ∀ i json calls fields, post i json = .ok (calls, fields) →
    (∀ call ∈ calls, ∀ j ≠ i, call.on j = .none) ∧ ∃ call ∈ calls, call.on i ≠ .none

/-- The `GET` branch names its LED. -/
def GetShows (get : GetBody) : Prop :=
  ∀ i led, ∃ fields, get i led = (ascii "led_index", .number i) :: fields

theorem on_setOnOff (i : ℕ) (onOff : Bool) :
    (∀ j ≠ i, (LedCall.setOnOff i onOff).on j = .none) ∧
      (LedCall.setOnOff i onOff).on i ≠ .none := by
  refine ⟨fun j hj => if_neg hj, fun h => ?_⟩
  rw [LedCall.on, if_pos rfl] at h
  exact CellOp.noConfusion h

theorem on_setLevel (i level : ℕ) :
    (∀ j ≠ i, (LedCall.setLevel i level).on j = .none) ∧
      (LedCall.setLevel i level).on i ≠ .none := by
  refine ⟨fun j hj => if_neg hj, fun h => ?_⟩
  rw [LedCall.on, if_pos rfl] at h
  exact CellOp.noConfusion h

/-- The handler is put together from branches for one LED. -/
def IsLedHandler (handler : LedHandler) : Prop :=
  ∃ post get, handler = ledHandler post get ∧ PostActs post ∧ GetShows get

theorem isLedHandler_ledHandler {post : PostBody} {get : GetBody} (hpost : PostActs post)
    (hget : GetShows get) : IsLedHandler (ledHandler post get) := ⟨post, get, rfl, hpost, hget⟩

theorem LedRoute.isLedHandler (r : LedRoute) : IsLedHandler r.handler := by
  cases r with
  | any =>
    show IsLedHandler ledPwmCgiLedAnyNumber
    unfold ledPwmCgiLedAnyNumber
    refine isLedHandler_ledHandler ?_ fun _ _ => ⟨_, rfl⟩
    intro i json calls fields h
    obtain ⟨_, -, h⟩ := bind_eq_ok.mp h
    obtain ⟨_, -, h⟩ := bind_eq_ok.mp h
    obtain ⟨onOff, -, h⟩ := bind_eq_ok.mp h
    obtain ⟨v, -, h⟩ := bind_eq_ok.mp h
    obtain ⟨rfl, -⟩ := Prod.mk.inj (Except.ok.inj h)
    refine ⟨fun call hcall => ?_, _, List.mem_cons_self, (on_setOnOff i onOff).2⟩
    rcases List.mem_cons.mp hcall with rfl | hcall
    · exact (on_setOnOff i onOff).1
    · obtain rfl := List.mem_singleton.mp hcall
      exact (on_setLevel i _).1
  | level =>
    show IsLedHandler ledPwmCgiLedLevelAnyNumber
    unfold ledPwmCgiLedLevelAnyNumber
    refine isLedHandler_ledHandler ?_ fun _ _ => ⟨_, rfl⟩
    intro i json calls fields h
    obtain ⟨_, -, h⟩ := bind_eq_ok.mp h
    obtain ⟨v, -, h⟩ := bind_eq_ok.mp h
    obtain ⟨rfl, -⟩ := Prod.mk.inj (Except.ok.inj h)
    refine ⟨fun call hcall => ?_, _, List.mem_singleton_self _, (on_setLevel i _).2⟩
    obtain rfl := List.mem_singleton.mp hcall
    exact (on_setLevel i _).1
  | onOff =>
    show IsLedHandler ledPwmCgiLedOnOffAnyNumber
    unfold ledPwmCgiLedOnOffAnyNumber
    refine isLedHandler_ledHandler ?_ fun _ _ => ⟨_, rfl⟩
    intro i json calls fields h
    obtain ⟨_, -, h⟩ := bind_eq_ok.mp h
    obtain ⟨onOff, -, h⟩ := bind_eq_ok.mp h
    obtain ⟨rfl, -⟩ := Prod.mk.inj (Except.ok.inj h)
    refine ⟨fun call hcall => ?_, _, List.mem_singleton_self _, (on_setOnOff i onOff).2⟩
    obtain rfl := List.mem_singleton.mp hcall
    exact (on_setOnOff i onOff).1

/-- The `POST` branch answers with an error and makes no call, or with what was asked. -/
theorem ledPost_cases (parse : List UInt8 → Option CJson) (memOk : Bool) (post : PostBody) (i : ℕ)
    (data : Option (List UInt8)) :
    (∃ statusCode, ledPost parse memOk post i data = (.response statusCode, [])) ∨
      ∃ json calls fields, post i json = .ok (calls, fields) ∧
        ledPost parse memOk post i data = (.json 201 fields, calls) := by
  unfold ledPost
  cases data with
  | none => exact Or.inl ⟨400, rfl⟩
  | some bytes =>
    cases hparse : parse bytes with
    | none => exact Or.inl ⟨422, by simp only [hparse]⟩
    | some json =>
      cases hpost : post i json with
      | error statusCode => exact Or.inl ⟨statusCode, by simp only [hparse, hpost]⟩
      | ok out =>
        obtain ⟨calls, fields⟩ := out
        cases memOk with
        | false => exact Or.inl ⟨500, by simp only [hparse, hpost]; rfl⟩
        | true => exact Or.inr ⟨json, calls, fields, hpost, by simp only [hparse, hpost]; rfl⟩

section

variable {post : PostBody} {get : GetBody} {url rest : List UInt8}

/-- With a number that is too large nothing is found. -/
theorem findsNothing_ledHandler (hurl : httpdCgiPathStartsWith (some url) (ascii "/LED_PWM/") =
    some rest) (hi : maxNumOfLedPwmSw ≤ httpdCgiParseUint rest) :
    FindsNothing (ledHandler post get) url := by
  intro parse memOk led method data
  unfold ledHandler
  simp only [hurl]
  exact if_pos hi

/-- The branches by method, with the number from the URL. -/
theorem ledHandler_index (hurl : httpdCgiPathStartsWith (some url) (ascii "/LED_PWM/") =
    some rest) (hi : httpdCgiParseUint rest < maxNumOfLedPwmSw)
    (parse : List UInt8 → Option CJson) (memOk : Bool) (led : ℕ → LedPwmStatus)
    (method : HttpdMethod) (data : Option (List UInt8)) :
    ledHandler post get parse memOk led ⟨some url, method, data⟩ =
      if method = .post then ledPost parse memOk post (httpdCgiParseUint rest) data
      else if method = .get then
        if memOk then
          (.json 200 (get (httpdCgiParseUint rest) (led (httpdCgiParseUint rest))), [])
        else (.response 500, [])
      else (.response 404, []) := by
  unfold ledHandler
  simp only [hurl]
  exact if_neg (Nat.not_le.mpr hi)

/-- The handlers act on the LED whose number they take from the URL. -/
theorem actsOn_ledHandler (hpost : PostActs post) (hget : GetShows get)
    (hurl : httpdCgiPathStartsWith (some url) (ascii "/LED_PWM/") = some rest)
    (hi : httpdCgiParseUint rest < maxNumOfLedPwmSw) :
    ActsOn (httpdCgiParseUint rest) (ledHandler post get) url where
  reads parse memOk led led' method data hled := by
    rw [ledHandler_index hurl hi, ledHandler_index hurl hi, hled]
  changes parse memOk led method data call hcall := by
    rw [ledHandler_index hurl hi] at hcall
    split at hcall
    · rcases ledPost_cases parse memOk post (httpdCgiParseUint rest) data with
        ⟨statusCode, heq⟩ | ⟨json, calls, fields, hok, heq⟩
      · rw [heq] at hcall
        exact absurd hcall List.not_mem_nil
      · rw [heq] at hcall
        exact (hpost _ json calls fields hok).1 call hcall
    · split at hcall
      · cases memOk <;> exact absurd hcall List.not_mem_nil
      · exact absurd hcall List.not_mem_nil
  shows parse led data := by
    obtain ⟨fields, hfields⟩ := hget (httpdCgiParseUint rest) (led (httpdCgiParseUint rest))
    refine ⟨fields, ?_⟩
    rw [ledHandler_index hurl hi, hfields]
    rfl
  accepts parse memOk led data fields hreply := by
    rw [ledHandler_index hurl hi, if_pos rfl] at hreply ⊢
    rcases ledPost_cases parse memOk post (httpdCgiParseUint rest) data with
      ⟨statusCode, heq⟩ | ⟨json, calls, fields', hok, heq⟩
    · rw [heq] at hreply
      exact nomatch hreply
    · rw [heq]
      exact (hpost _ json calls fields' hok).2

end

/-! ## The number in the URL -/

/-- The number that the code takes from the last byte of the URL. -/
def LedRoute.index (r : LedRoute) (c : UInt8) : ℕ :=
  match r with
  | .any => if isDigit c then c.toNat - 48 else 0
  | .level | .onOff => 0

theorem parseUint_single (c : UInt8) :
    httpdCgiParseUint [c] = if isDigit c then c.toNat - 48 else 0 :=
  forall_byte (P := fun c => httpdCgiParseUint [c] = if isDigit c then c.toNat - 48 else 0)
    (by decide +kernel) c

/-- The text behind `/LED_PWM/`, and the number it is taken for. -/
theorem LedRoute.rest_eq (r : LedRoute) (c : UInt8) :
    ∃ rest, httpdCgiPathStartsWith (some (r.fixed ++ [c])) (ascii "/LED_PWM/") = some rest ∧
      httpdCgiParseUint rest = r.index c := by
  cases r with
  | any => exact ⟨[c], pathStartsWith_append _ _, parseUint_single c⟩
  | level =>
    refine ⟨ascii "Level/" ++ [c], ?_, rfl⟩
    have hfixed : LedRoute.level.fixed = ascii "/LED_PWM/" ++ ascii "Level/" := by decide
    rw [hfixed, List.append_assoc]
    exact pathStartsWith_append _ _
  | onOff =>
    refine ⟨ascii "On_Off/" ++ [c], ?_, rfl⟩
    have hfixed : LedRoute.onOff.fixed = ascii "/LED_PWM/" ++ ascii "On_Off/" := by decide
    rw [hfixed, List.append_assoc]
    exact pathStartsWith_append _ _

/-! ## The main result -/

theorem decimal_inj {m n : ℕ} (hm : m < maxNumOfLedPwmSw) (hn : n < maxNumOfLedPwmSw)
    (h : decimal m = decimal n) : m = n := by
  have hall : ∀ m < maxNumOfLedPwmSw, ∀ n < maxNumOfLedPwmSw, decimal m = decimal n → m = n := by
    decide +kernel
  exact hall m hm n hn h

/-- Only one LED is shown. -/
theorem ActsOn.unique {m n : ℕ} {handler : LedHandler} {url : List UInt8}
    (hm : ActsOn m handler url) (hn : ActsOn n handler url) : m = n := by
  obtain ⟨_, hm⟩ := hm.shows (fun _ => none) (fun _ => .zero) none
  obtain ⟨_, hn⟩ := hn.shows (fun _ => none) (fun _ => .zero) none
  have hfields := (CgiReply.json.inj (hm.symm.trans hn)).2
  exact JsonField.number.inj (Prod.mk.inj (List.cons.inj hfields).1).2

theorem ActsOn.not_findsNothing {n : ℕ} {handler : LedHandler} {url : List UInt8}
    (h : ActsOn n handler url) : ¬ FindsNothing handler url := by
  intro hnothing
  obtain ⟨_, hshows⟩ := h.shows (fun _ => none) (fun _ => .zero) none
  rw [hnothing] at hshows
  exact CgiReply.noConfusion hshows

/-- The last byte names the LED that the code takes it for, or none if the code finds none. -/
def LedRoute.ByteOk (r : LedRoute) (c : UInt8) : Prop :=
  if maxNumOfLedPwmSw ≤ r.index c then ∀ n < maxNumOfLedPwmSw, [c] ≠ decimal n
  else [c] = decimal (r.index c)

instance (r : LedRoute) (c : UInt8) : Decidable (r.ByteOk c) :=
  inferInstanceAs (Decidable (ite _ _ _))

theorem actsRight_iff_byteOk (r : LedRoute) (c : UInt8) :
    ActsRight r (r.fixed ++ [c]) ↔ r.ByteOk c := by
  obtain ⟨rest, hrest, hindex⟩ := r.rest_eq c
  obtain ⟨post, get, hhandler, hpost, hget⟩ := r.isLedHandler
  unfold ActsRight LedRoute.ByteOk
  rw [List.drop_left]
  by_cases hi : maxNumOfLedPwmSw ≤ r.index c
  · have hnothing : FindsNothing r.handler (r.fixed ++ [c]) := by
      rw [hhandler]
      exact findsNothing_ledHandler hrest (hindex ▸ hi)
    rw [if_pos hi]
    constructor
    · exact fun h n hn htail => (h.1 n hn htail).not_findsNothing hnothing
    · exact fun h => ⟨fun n hn htail => absurd htail (h n hn), fun _ => hnothing⟩
  · have hi : r.index c < maxNumOfLedPwmSw := Nat.not_le.mp hi
    have hacts : ActsOn (r.index c) r.handler (r.fixed ++ [c]) := by
      rw [hhandler, ← hindex]
      exact actsOn_ledHandler hpost hget hrest (hindex ▸ hi)
    rw [if_neg (Nat.not_le.mpr hi)]
    constructor
    · intro h
      by_cases hnone : ∀ n < maxNumOfLedPwmSw, [c] ≠ decimal n
      · exact absurd (h.2 hnone) hacts.not_findsNothing
      · simp only [not_forall, Decidable.not_not] at hnone
        obtain ⟨n, hn, htail⟩ := hnone
        rw [htail, (h.1 n hn htail).unique hacts]
    · intro htail
      refine ⟨fun n hn hn' => ?_, fun hnone => absurd htail (hnone _ hi)⟩
      rw [decimal_inj hn hi (hn'.symm.trans htail)]
      exact hacts

theorem byteOk_iff_tailOk (r : LedRoute) (c : UInt8) : r.ByteOk c ↔ r.TailOk [c] := by
  have hc : ∀ c, r.ByteOk c ↔
      match r with
      | .any => isDigit c = true
      | .level | .onOff => c = 48 := by
    cases r with
    | any => exact forall_byte (by decide +kernel)
    | level => exact forall_byte (by decide +kernel)
    | onOff => exact forall_byte (by decide +kernel)
  refine (hc c).trans ?_
  cases r with
  | any =>
    constructor
    · exact fun h => ⟨c, rfl, h⟩
    · rintro ⟨c', hc', h⟩
      obtain rfl := List.cons.inj hc' |>.1
      exact h
  | level => exact ⟨fun h => congrArg (fun c => [c]) h, fun h => (List.cons.inj h).1⟩
  | onOff => exact ⟨fun h => congrArg (fun c => [c]) h, fun h => (List.cons.inj h).1⟩

/-- A URL that a route handles acts on the LED that it names exactly if the text behind the fixed
part is a decimal digit, for the routes of the level and of the switch the digit 0. -/
theorem actsRight_iff (r : LedRoute) (url : List UInt8) (slot : CgiSlot)
    (h : r.Handles url slot) : ActsRight r url ↔ r.TailOk (url.drop r.fixed.length) := by
  obtain ⟨c, rfl⟩ := h.eq
  rw [List.drop_left, actsRight_iff_byteOk, byteOk_iff_tailOk]

theorem actsRight_iff_led3 :
    LedRoute.any.Handles (ascii "/LED_PWM/3") ⟨none, none⟩ ∧
      (ActsRight .any (ascii "/LED_PWM/3") ↔
        LedRoute.any.TailOk ((ascii "/LED_PWM/3").drop LedRoute.any.fixed.length)) := by
  have h : LedRoute.any.Handles (ascii "/LED_PWM/3") ⟨none, none⟩ := by
    unfold LedRoute.Handles
    decide +kernel
  exact ⟨h, actsRight_iff .any _ _ h⟩

/-- The switch of the third LED is reached by a URL that acts on the first. -/
theorem not_actsRight_onOff2 :
    LedRoute.onOff.Handles (ascii "/LED_PWM/On_Off/2") ⟨none, none⟩ ∧
      ¬ ActsRight .onOff (ascii "/LED_PWM/On_Off/2") := by
  constructor
  · unfold LedRoute.Handles
    decide +kernel
  · intro h
    have hurl : ascii "/LED_PWM/On_Off/2" = LedRoute.onOff.fixed ++ [50] := by decide +kernel
    rw [hurl, actsRight_iff_byteOk] at h
    exact absurd h (by decide +kernel)

end WLink.Led
