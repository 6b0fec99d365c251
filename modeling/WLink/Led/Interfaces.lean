import WLink.Led.Routes

/-!
# Three ways to set a level

A message, a `POST` to the LED and a `POST` to its level are three parsers of one command. They
agree only on the levels 0 and 1 of the first LED (`levelsAgree_iff`), and no answer to a `POST`
shows what a `GET` shows afterwards (`not_postsReport`).
-/

namespace WLink.Led

open WLink.Lib WLink.Misc WLink.Httpd CString WLink.Driver

/-- The calls of a request, one after the other, each with what the driver finds at it. -/
def runCalls (b : Board) (env : LedCall → ℕ → Env) (s : LedState) (calls : List LedCall) :
    LedState :=
  calls.foldl (fun s call => ledStep b s (call, env call)) s

/-- The object has a member that is the number `v`. -/
def HasNumber (json : CJson) (name : List UInt8) (v : ℤ) : Prop :=
  ∃ item, json.getObjectItem name = some item ∧ item.type = .number ∧ item.valueint = v

/-- The same request to give the LED `i` the level `v`, as a message and as the bodies of the two
`POST`s; the first `POST` also has `"on_off":true`. -/
structure LevelRequest (parse : List UInt8 → Option CJson) (i : ℕ) (v : ℤ) where
  message : CJson
  anyData : List UInt8
  anyBody : CJson
  levelData : List UInt8
  levelBody : CJson
  command : ∃ item, message.getObjectItem (ascii "command") = some item ∧
    item.type = .string ∧ item.valuestring = ascii "set individual led level state"
  index : messageIndex message = some i
  messageLevel : HasNumber message (ascii "level") v
  anyParse : parse anyData = some anyBody
  anyOnOff : ∃ item, anyBody.getObjectItem (ascii "on_off") = some item ∧ item.type = .cTrue
  anyLevel : HasNumber anyBody (ascii "level") v
  levelParse : parse levelData = some levelBody
  levelLevel : HasNumber levelBody (ascii "level") v

inductive LevelInterface
  | message
  | any
  | level
deriving DecidableEq, Repr

/-- The URL of an LED on a route. -/
def LedRoute.url (r : LedRoute) (i : ℕ) : List UInt8 := r.fixed ++ decimal i

/-- The answer is 201. -/
def created : CgiReply → Bool
  | .json 201 _ => true
  | _ => false

section

variable (b : Board) (env : LedCall → ℕ → Env) {parse : List UInt8 → Option CJson}
  (s : LedState) {i : ℕ} {v : ℤ} (r : LevelRequest parse i v)

/-- Whether an interface accepts the request, and the LEDs afterwards. -/
def LevelInterface.outcome : LevelInterface → Bool × LedState
  | .message =>
    let out := processLedPwmAppJsonPostCommands r.message
    (out.1 = 0, runCalls b env s out.2)
  | .any =>
    let out := ledPwmCgiLedAnyNumber parse true s.led
      ⟨some (LedRoute.any.url i), .post, some r.anyData⟩
    (created out.1, runCalls b env s out.2)
  | .level =>
    let out := ledPwmCgiLedLevelAnyNumber parse true s.led
      ⟨some (LedRoute.level.url i), .post, some r.levelData⟩
    (created out.1, runCalls b env s out.2)

/-- A `GET` of the LED `i` reports the level `v`. -/
def Reports (parse : List UInt8 → Option CJson) (s : LedState) (i : ℕ) (v : ℤ) : Prop :=
  ∃ (fields : List (List UInt8 × JsonField)) (level : ℕ), (ledPwmCgiLedAnyNumber parse true s.led
      ⟨some (LedRoute.any.url i), .get, none⟩).1 = .json 200 fields ∧
    (ascii "level", .number level) ∈ fields ∧ (level : ℤ) = v

/-- All interfaces accept exactly the levels from 0 to 100, leave the level alone if they do not
accept, and lead to the same level if they do, which a `GET` then reports. -/
structure LevelsAgree : Prop where
  accepts : ∀ k : LevelInterface, (k.outcome b env s r).1 = true ↔ 0 ≤ v ∧ v ≤ 100
  refuses : ∀ k : LevelInterface, (k.outcome b env s r).1 = false →
    ((k.outcome b env s r).2.led i).level = (s.led i).level
  agrees : ∀ k k' : LevelInterface, (k.outcome b env s r).1 = true →
    (k'.outcome b env s r).1 = true →
      ((k.outcome b env s r).2.led i).level = ((k'.outcome b env s r).2.led i).level
  reports : ∀ k : LevelInterface, (k.outcome b env s r).1 = true →
    Reports parse (k.outcome b env s r).2 i v

/-- The fields of the answer to a `POST` are the ones that a `GET` shows afterwards. -/
def PostsReport (parse : List UInt8 → Option CJson) : Prop :=
  ∀ (q : LedRoute) (url data : List UInt8) (fields : List (List UInt8 × JsonField)),
    (q.handler parse true s.led ⟨some url, .post, some data⟩).1 = .json 201 fields →
      (q.handler parse true
        (runCalls b env s (q.handler parse true s.led ⟨some url, .post, some data⟩).2).led
        ⟨some url, .get, none⟩).1 = .json 200 fields

end

/-! ## What the calls do to an LED -/

section

variable {b : Board} {env : ℕ → Env} {s : LedState} {i : ℕ}

theorem setOnOff_led (hi : i < maxNumOfLedPwmSw) (onOff : Bool) :
    (ledStep b s (.setOnOff i onOff, env)).led =
      Function.update s.led i { s.led i with onOff := onOff } := by
  show (ledPwmSetLedOnOffStatus b env i onOff s).led = _
  unfold ledPwmSetLedOnOffStatus switchLed
  rw [if_neg (Nat.not_le.mpr hi)]
  cases onOff <;> rfl

theorem setLevel_led (hi : i < maxNumOfLedPwmSw) (hon : (s.led i).onOff = true) (level : ℕ) :
    (ledStep b s (.setLevel i level, env)).led =
      Function.update s.led i { s.led i with level := level } := by
  show (ledPwmSetLedLevelStatus b env i level s).led = _
  unfold ledPwmSetLedLevelStatus dimLed
  rw [if_neg (Nat.not_le.mpr hi), if_pos hon]
  rfl

/-- A level for one LED leaves the others alone. -/
theorem setLevel_led_of_ne {j : ℕ} (hj : j ≠ i) (level : ℕ) :
    (ledStep b s (.setLevel i level, env)).led j = s.led j := by
  show (ledPwmSetLedLevelStatus b env i level s).led j = _
  unfold ledPwmSetLedLevelStatus dimLed
  split
  · rfl
  · split
    · exact Function.update_of_ne hj _ _
    · rfl

end

theorem runCalls_cons (b : Board) (env : LedCall → ℕ → Env) (s : LedState) (call : LedCall)
    (calls : List LedCall) :
    runCalls b env s (call :: calls) = runCalls b env (ledStep b s (call, env call)) calls := rfl

theorem runCalls_nil (b : Board) (env : LedCall → ℕ → Env) (s : LedState) :
    runCalls b env s [] = s := rfl

/-! ## What the handlers answer -/

theorem jsonItem_eq {json item : CJson} {name : List UInt8}
    (h : json.getObjectItem name = some item) : jsonItem json name = .ok item := by
  unfold jsonItem
  rw [h]

theorem jsonBool_true {item : CJson} (h : item.type = .cTrue) : jsonBool item = .ok true := by
  unfold jsonBool
  rw [h]

theorem jsonNumber_eq {item : CJson} (h : item.type = .number) :
    jsonNumber item = .ok item.valueint := if_pos h

section

variable {parse : List UInt8 → Option CJson} {i : ℕ} {v : ℤ} (r : LevelRequest parse i v)
  (led : ℕ → LedPwmStatus)

theorem messageIndex_lt {json : CJson} (h : messageIndex json = some i) :
    i < maxNumOfLedPwmSw := by
  unfold messageIndex at h
  split at h
  · exact nomatch h
  · split at h
    · next hrange =>
      obtain rfl := Option.some.inj h
      have hlt := hrange.2.1
      omega
    · exact nomatch h

/-- The last byte of the URL of an LED. -/
theorem url_eq (q : LedRoute) (hi : i < maxNumOfLedPwmSw) :
    q.url i = q.fixed ++ [UInt8.ofNat (48 + i)] := by
  have hall : ∀ i < maxNumOfLedPwmSw, decimal i = [UInt8.ofNat (48 + i)] := by decide +kernel
  exact congrArg (q.fixed ++ ·) (hall i hi)

/-- The number that the code takes from the URL of an LED. -/
theorem index_url (q : LedRoute) (hi : i < maxNumOfLedPwmSw) :
    ∃ rest, httpdCgiPathStartsWith (some (q.url i)) (ascii "/LED_PWM/") = some rest ∧
      httpdCgiParseUint rest = if q = .any then i else 0 := by
  obtain ⟨rest, hrest, hindex⟩ := q.rest_eq (UInt8.ofNat (48 + i))
  rw [← url_eq q hi] at hrest
  refine ⟨rest, hrest, hindex.trans ?_⟩
  have hall : ∀ q : LedRoute, ∀ i < maxNumOfLedPwmSw, q.index (UInt8.ofNat (48 + i)) =
      if q = .any then i else 0 := by
    intro q
    cases q with
    | any => decide +kernel
    | level => decide +kernel
    | onOff => decide +kernel
  exact hall q i hi

theorem message_eq :
    processLedPwmAppJsonPostCommands r.message =
      if 0 ≤ v ∧ v ≤ 100 then (0, [.setLevel i (v.toNat * 10)]) else (-1, []) := by
  obtain ⟨cmd, hcmd, hstring, hname⟩ := r.command
  obtain ⟨item, hitem, hnumber, rfl⟩ := r.messageLevel
  have hother : ascii "set individual led level state" ≠
      ascii "set individual led on/off state" := by decide +kernel
  unfold processLedPwmAppJsonPostCommands commandLevel
  simp only [hcmd, hname, if_neg hother, hstring, hitem, r.index, hnumber, if_true, ne_eq,
    not_true_eq_false, if_false, true_and, and_comm]

theorem any_post_eq :
    ledPwmCgiLedAnyNumber parse true led ⟨some (LedRoute.any.url i), .post, some r.anyData⟩ =
      (.json 201 [ledIndexField i, (ascii "on_off", .bool true),
        (ascii "level", .number (levelByte v))],
        [.setOnOff i true, .setLevel i (levelByte v * 10)]) := by
  have hi := messageIndex_lt r.index
  obtain ⟨rest, hrest, hindex⟩ := index_url .any hi
  rw [if_pos rfl] at hindex
  obtain ⟨onOff, honOff, htrue⟩ := r.anyOnOff
  obtain ⟨level, hlevel, hnumber, rfl⟩ := r.anyLevel
  unfold ledPwmCgiLedAnyNumber
  rw [ledHandler_index hrest (hindex ▸ hi), if_pos rfl, hindex]
  unfold ledPost
  simp only [r.anyParse, jsonItem_eq honOff, jsonItem_eq hlevel, jsonBool_true htrue,
    jsonNumber_eq hnumber, bind, Except.bind, if_true]
  rfl

theorem any_get_eq (hi : i < maxNumOfLedPwmSw) :
    ledPwmCgiLedAnyNumber parse true led ⟨some (LedRoute.any.url i), .get, none⟩ =
      (.json 200 [(ascii "led_index", .number i), (ascii "on_off", .bool (led i).onOff),
        (ascii "level", .number ((led i).level / 10))], []) := by
  obtain ⟨rest, hrest, hindex⟩ := index_url .any hi
  rw [if_pos rfl] at hindex
  unfold ledPwmCgiLedAnyNumber
  rw [ledHandler_index hrest (hindex ▸ hi), hindex]
  rfl

theorem level_post_eq :
    ledPwmCgiLedLevelAnyNumber parse true led
        ⟨some (LedRoute.level.url i), .post, some r.levelData⟩ =
      (.json 201 [ledIndexField 0, (ascii "level", .bool (levelBool v))],
        [.setLevel 0 ((levelBool v).toNat * 10)]) := by
  have hi := messageIndex_lt r.index
  obtain ⟨rest, hrest, hindex⟩ := index_url .level hi
  rw [if_neg (by decide)] at hindex
  obtain ⟨level, hlevel, hnumber, rfl⟩ := r.levelLevel
  unfold ledPwmCgiLedLevelAnyNumber
  rw [ledHandler_index hrest (hindex ▸ by decide), if_pos rfl, hindex]
  unfold ledPost
  simp only [r.levelParse, jsonItem_eq hlevel, jsonNumber_eq hnumber, bind, Except.bind, if_true]
  rfl

end

/-! ## The outcomes -/

section

variable (b : Board) (env : LedCall → ℕ → Env) {parse : List UInt8 → Option CJson}
  (s : LedState) {i : ℕ} {v : ℤ} (r : LevelRequest parse i v)

/-- A message is accepted in the range, and then the LED has the level. -/
theorem outcome_message (hon : (s.led i).onOff = true) :
    ((LevelInterface.message.outcome b env s r).1 = true ↔ 0 ≤ v ∧ v ≤ 100) ∧
      ((LevelInterface.message.outcome b env s r).2.led i).level =
        if 0 ≤ v ∧ v ≤ 100 then v.toNat * 10 else (s.led i).level := by
  unfold LevelInterface.outcome
  simp only [message_eq]
  by_cases hv : 0 ≤ v ∧ v ≤ 100
  · simp only [if_pos hv]
    refine ⟨iff_of_true rfl hv, ?_⟩
    rw [runCalls_cons, runCalls_nil, setLevel_led (messageIndex_lt r.index) hon,
      Function.update_self]
  · simp only [if_neg hv]
    exact ⟨iff_of_false Bool.false_ne_true hv, rfl⟩

/-- A `POST` to the LED is accepted, and the LED has the level that is left of it in a byte. -/
theorem outcome_any :
    (LevelInterface.any.outcome b env s r).1 = true ∧
      ((LevelInterface.any.outcome b env s r).2.led i).level = levelByte v * 10 := by
  have hi := messageIndex_lt r.index
  unfold LevelInterface.outcome
  simp only [any_post_eq]
  refine ⟨rfl, ?_⟩
  have hon : ((ledStep b s (.setOnOff i true, env (.setOnOff i true))).led i).onOff = true := by
    rw [setOnOff_led hi, Function.update_self]
  rw [runCalls_cons, runCalls_cons, runCalls_nil, setLevel_led hi hon, Function.update_self]

/-- A `POST` to the level is accepted, and the first LED has the level that is left of it in a
`bool`. -/
theorem outcome_level (hon : (s.led i).onOff = true) :
    (LevelInterface.level.outcome b env s r).1 = true ∧
      ((LevelInterface.level.outcome b env s r).2.led i).level =
        if i = 0 then (levelBool v).toNat * 10 else (s.led i).level := by
  unfold LevelInterface.outcome
  simp only [level_post_eq]
  refine ⟨rfl, ?_⟩
  rw [runCalls_cons, runCalls_nil]
  by_cases hi : i = 0
  · subst hi
    rw [if_pos rfl, setLevel_led (by decide) hon, Function.update_self]
  · rw [if_neg hi, setLevel_led_of_ne hi]

/-- A `GET` of the LED reports a tenth of its level. -/
theorem reports_iff {i : ℕ} (hi : i < maxNumOfLedPwmSw) (t : LedState) (v : ℤ) :
    Reports parse t i v ↔ (((t.led i).level / 10 : ℕ) : ℤ) = v := by
  unfold Reports
  rw [any_get_eq t.led hi]
  constructor
  · rintro ⟨fields, level, hreply, hmem, rfl⟩
    obtain ⟨-, rfl⟩ := CgiReply.json.inj hreply
    have hindex : ascii "level" ≠ ascii "led_index" := by decide +kernel
    have honOff : ascii "level" ≠ ascii "on_off" := by decide +kernel
    rcases List.mem_cons.mp hmem with h | hmem
    · exact absurd (congrArg Prod.fst h) hindex
    · rcases List.mem_cons.mp hmem with h | hmem
      · exact absurd (congrArg Prod.fst h) honOff
      · have hlevel := congrArg Prod.snd (List.mem_singleton.mp hmem)
        rw [JsonField.number.inj hlevel]
  · intro hv
    exact ⟨_, _, rfl, List.mem_cons_of_mem _ (List.mem_cons_of_mem _ List.mem_cons_self), hv⟩

/-- The three interfaces agree exactly on the levels 0 and 1 of the first LED -- and for another
LED, which the third one does not reach, if its level is right already. -/
theorem levelsAgree_iff (hon : (s.led i).onOff = true) :
    LevelsAgree b env s r ↔
      (0 ≤ v ∧ v ≤ 100) ∧ if i = 0 then v ≤ 1 else (s.led i).level = v.toNat * 10 := by
  obtain ⟨hmessage, hmessageLevel⟩ := outcome_message b env s r hon
  obtain ⟨hany, hanyLevel⟩ := outcome_any b env s r
  obtain ⟨hlevel, hlevelLevel⟩ := outcome_level b env s r hon
  constructor
  · intro h
    have hrange := (h.accepts .any).mp hany
    refine ⟨hrange, ?_⟩
    have hsame := h.agrees .level .message hlevel (hmessage.mpr hrange)
    rw [hlevelLevel, hmessageLevel, if_pos hrange] at hsame
    split at hsame
    · next hi =>
      rw [if_pos hi]
      have hbool : (levelBool v).toNat ≤ 1 := Bool.toNat_le _
      omega
    · next hi =>
      rw [if_neg hi]
      exact hsame
  · rintro ⟨hrange, hcond⟩
    have haccepts : ∀ k : LevelInterface, (k.outcome b env s r).1 = true := by
      intro k
      cases k with
      | message => exact hmessage.mpr hrange
      | any => exact hany
      | level => exact hlevel
    have hsame : ∀ k : LevelInterface,
        ((k.outcome b env s r).2.led i).level = v.toNat * 10 := by
      intro k
      cases k with
      | message => rw [hmessageLevel, if_pos hrange]
      | any =>
        have hbyte : levelByte v = v.toNat := by
          unfold levelByte
          omega
        rw [hanyLevel, hbyte]
      | level =>
        rw [hlevelLevel]
        split at hcond
        · next hi =>
          have hbool : (levelBool v).toNat = v.toNat := by
            obtain rfl | rfl : v = 0 ∨ v = 1 := by omega
            · rfl
            · rfl
          rw [if_pos hi, hbool]
        · next hi => rw [if_neg hi, hcond]
    refine ⟨fun k => iff_of_true (haccepts k) hrange, fun k hk => ?_, fun k k' _ _ => ?_,
      fun k _ => ?_⟩
    · exact absurd ((haccepts k).symm.trans hk) Bool.true_eq_false_eq_False
    · rw [hsame k, hsame k']
    · rw [reports_iff (messageIndex_lt r.index), hsame k, Nat.mul_div_cancel _ (by decide)]
      exact Int.toNat_of_nonneg hrange.1

include r in
/-- The answer to a `POST` has the number of the LED as a truth value, that to a `GET` as a
number. -/
theorem not_postsReport : ¬ PostsReport b env s parse := by
  intro h
  have hpost := any_post_eq r s.led
  have hget := h .any (LedRoute.any.url i) r.anyData _ (congrArg Prod.fst hpost)
  rw [show LedRoute.any.handler = ledPwmCgiLedAnyNumber from rfl,
    any_get_eq _ (messageIndex_lt r.index)] at hget
  have hfields := (CgiReply.json.inj hget).2
  exact JsonField.noConfusion (Prod.mk.inj (List.cons.inj hfields).1).2

/-- The interfaces never both agree on the level and report what a `GET` shows; on the level alone
they agree for 0 and 1 on the first LED, and on another one if its level is right already. -/
theorem interfaces_disagree (hon : (s.led i).onOff = true) :
    ¬ (LevelsAgree b env s r ∧ PostsReport b env s parse) ∧
      (LevelsAgree b env s r ↔
        (0 ≤ v ∧ v ≤ 100) ∧ if i = 0 then v ≤ 1 else (s.led i).level = v.toNat * 10) :=
  ⟨fun h => not_postsReport b env s r h.2, levelsAgree_iff b env s r hon⟩

end

/-- A JSON object that is a message and a body at once: it asks for level 50 of the first LED. -/
def level50 : CJson :=
  .item none .object 0 []
    [.item (some (ascii "command")) .string 0 (ascii "set individual led level state") [],
      .item (some (ascii "led_index")) .number 0 [] [],
      .item (some (ascii "on_off")) .cTrue 0 [] [],
      .item (some (ascii "level")) .number 50 [] []]

theorem getObjectItem_level50 :
    level50.getObjectItem (ascii "level") = some (.item (some (ascii "level")) .number 50 [] []) := by
  rfl

def request50 : LevelRequest (fun _ => some level50) 0 50 where
  message := level50
  anyData := []
  anyBody := level50
  levelData := []
  levelBody := level50
  command := ⟨_, rfl, rfl, rfl⟩
  index := rfl
  messageLevel := ⟨_, getObjectItem_level50, rfl, rfl⟩
  anyParse := rfl
  anyOnOff := ⟨_, rfl, rfl⟩
  anyLevel := ⟨_, getObjectItem_level50, rfl, rfl⟩
  levelParse := rfl
  levelLevel := ⟨_, getObjectItem_level50, rfl, rfl⟩

/-- All LEDs are on, at level 0. -/
def ledsOn : LedState := ⟨fun _ => ⟨true, 0⟩, .reset⟩

theorem interfaces_disagree_50 :
    ¬ (LevelsAgree stm32f207 (fun _ _ => runningEnv) ledsOn request50 ∧
        PostsReport stm32f207 (fun _ _ => runningEnv) ledsOn fun _ => some level50) ∧
      (LevelsAgree stm32f207 (fun _ _ => runningEnv) ledsOn request50 ↔
        ((0 : ℤ) ≤ 50 ∧ (50 : ℤ) ≤ 100) ∧
          if 0 = 0 then (50 : ℤ) ≤ 1 else (ledsOn.led 0).level = (50 : ℤ).toNat * 10) :=
  interfaces_disagree stm32f207 (fun _ _ => runningEnv) ledsOn request50 rfl

/-- Level 50 becomes level 1 if it is set through the level of the LED. -/
theorem not_agree_50 :
    ¬ (LevelsAgree stm32f207 (fun _ _ => runningEnv) ledsOn request50 ∧
        PostsReport stm32f207 (fun _ _ => runningEnv) ledsOn fun _ => some level50) := by
  rintro ⟨hagree, -⟩
  obtain ⟨-, hlevel⟩ := (levelsAgree_iff stm32f207 (fun _ _ => runningEnv) ledsOn request50 rfl).mp
    hagree
  rw [if_pos rfl] at hlevel
  exact absurd hlevel (by decide)

end WLink.Led
