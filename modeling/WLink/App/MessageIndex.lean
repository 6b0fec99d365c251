import WLink.App.Handlers
import Mathlib.Data.Rat.Floor

/-!
# The LED that a message names

The handlers of messages look up `valueint` of the item `led_index`, which cJSON has cut off from
the double that was given. `indexSafe_iff` says for which messages the LED table is looked up
inside its bounds, and at the LED whose number was given.

* `Received` -- an object as cJSON hands it to the handlers
* `ValidPost` -- a `POST` command whose other arguments are valid
* `getLookup` -- where `Process_LED_PWM_APP_JSON_GET_Commands` looks the table up
-/

namespace WLink.App

open WLink.Lib WLink.Misc WLink.Httpd WLink.Led Exec

/-! ## Numbers -/

/-- The values of a `double`. -/
inductive JsonDouble
  | finite (q : ℚ)
  | infinite (negative : Bool)
  | nan
deriving DecidableEq

/-- A number without its fraction. -/
def truncate (q : ℚ) : ℤ := if 0 ≤ q then ⌊q⌋ else ⌈q⌉

/-- `(int)n` in `parse_number`. The language says nothing about a number that is too large for an
`int`; what the processor makes of it is `beyond`. -/
def castInt (beyond : JsonDouble → ℤ) : JsonDouble → ℤ
  | .finite q =>
    if -2 ^ 31 ≤ truncate q ∧ truncate q < 2 ^ 31 then truncate q else beyond (.finite q)
  | n => beyond n

/-- A JSON object that has been received: the item `led_index`, if it is a number, has a
`valuedouble` beside its `valueint`. -/
structure Received (beyond : JsonDouble → ℤ) where
  json : CJson
  valuedouble : JsonDouble
  valueint_eq : ∀ item, json.getObjectItem (ascii "led_index") = some item →
    item.type = .number → item.valueint = castInt beyond valuedouble

/-! ## Where the table is looked up -/

/-- The LED that a call of the LED layer is about. -/
def ledOf : LedCall → Option ℕ
  | .setOnOff i _ => some i
  | .setLevel i _ => some i
  | .toggle i => some i
  | _ => none

/-- A `POST` command whose arguments other than `led_index` are valid. -/
def ValidPost (json : CJson) : Prop :=
  (stringItem json (ascii "command") = some (ascii "set individual led on/off state") ∧
    ∃ item, json.getObjectItem (ascii "on_off") = some item ∧
      (item.type = .cTrue ∨ item.type = .cFalse)) ∨
  (stringItem json (ascii "command") = some (ascii "set individual led level state") ∧
    ∃ item, json.getObjectItem (ascii "level") = some item ∧ item.type = .number ∧
      0 ≤ item.valueint ∧ item.valueint ≤ 100) ∨
  stringItem json (ascii "command") = some (ascii "toggle individual switch on/off state")

/-- The index in `All_LED_Status[pJson_led_index->valueint]`, if
`Process_LED_PWM_APP_JSON_GET_Commands` gets there. -/
def getLookup (json : CJson) : Option ℤ :=
  if getCommand json = .individual then
    match json.getObjectItem (ascii "led_index") with
    | none => none
    | some item =>
      if item.valueint < maxNumOfLedPwmSw ∧ item.type = .number then some item.valueint else none
  else none

/-- The answer with the LED at an index of the table. -/
def answerLookup (env : HandlerEnv) (led : ℕ → LedPwmStatus) (rspJson : CJsonNode) :
    Option ℤ → HandlerM (ℤ × CJsonNode)
  | none => pure (0, rspJson)
  | some z => do
    let i ← Exec.lift (if 0 ≤ z then .ok z.toNat else .error .read)
    let rspJson ← addFields env (ledFields i (led i)) rspJson
    pure (0, rspJson)

/-- The handler looks the table up there and nowhere else. -/
theorem individualStatusMem_eq (env : HandlerEnv) (led : ℕ → LedPwmStatus) {json : CJson}
    (hcommand : getCommand json = .individual) (rspJson : CJsonNode) :
    individualStatusMem env led json rspJson = answerLookup env led rspJson (getLookup json) := by
  unfold individualStatusMem getLookup
  rw [if_pos hcommand]
  cases json.getObjectItem (ascii "led_index") with
  | none => rfl
  | some item =>
    by_cases hitem : item.valueint < maxNumOfLedPwmSw ∧ item.type = .number
    · simp only [if_pos hitem]
      rfl
    · simp only [if_neg hitem]
      rfl

/-- The table is looked up inside its bounds, and at the LED whose number was given. -/
structure IndexSafe {beyond : JsonDouble → ℤ} (r : Received beyond) : Prop where
  post : ∀ call ∈ (processLedPwmAppJsonPostCommands r.json).2,
    ∃ i < maxNumOfLedPwmSw, ledOf call = some i ∧ r.valuedouble = .finite i
  get : ∀ z, getLookup r.json = some z →
    0 ≤ z ∧ z < maxNumOfLedPwmSw ∧ r.valuedouble = .finite z

/-! ## `POST` -/

theorem processPost_eq (json : CJson) :
    processLedPwmAppJsonPostCommands json =
      if stringItem json (ascii "command") = some (ascii "set individual led on/off state") then
        commandOnOff json
      else if stringItem json (ascii "command") = some (ascii "set individual led level state") then
        commandLevel json
      else if stringItem json (ascii "command") =
          some (ascii "toggle individual switch on/off state") then commandToggle json
      else (0, []) := by
  unfold processLedPwmAppJsonPostCommands stringItem
  cases json.getObjectItem (ascii "command") with
  | none => simp
  | some cmd =>
    by_cases htype : cmd.type = .string
    · simp [htype]
    · simp [htype]

/-- What a command has to do with the LED that `messageIndex` names. -/
structure CommandCalls (json : CJson) (valid : Prop) (calls : List LedCall) : Prop where
  sound : ∀ call ∈ calls, valid ∧ ∃ i, messageIndex json = some i ∧ ledOf call = some i
  complete : valid → ∀ i, messageIndex json = some i → ∃ call ∈ calls, ledOf call = some i

theorem commandOnOff_calls (json : CJson) :
    CommandCalls json (∃ item, json.getObjectItem (ascii "on_off") = some item ∧
      (item.type = .cTrue ∨ item.type = .cFalse)) (commandOnOff json).2 := by
  unfold commandOnOff
  cases hitem : json.getObjectItem (ascii "on_off") with
  | none => exact ⟨by simp, by simp⟩
  | some item =>
    cases hindex : messageIndex json with
    | none => exact ⟨by simp, by simp [hindex]⟩
    | some i =>
      cases htype : item.type <;> exact ⟨by simp [ledOf, hindex, htype], by simp [ledOf, hindex, htype]⟩

theorem commandLevel_calls (json : CJson) :
    CommandCalls json (∃ item, json.getObjectItem (ascii "level") = some item ∧
      item.type = .number ∧ 0 ≤ item.valueint ∧ item.valueint ≤ 100) (commandLevel json).2 := by
  unfold commandLevel
  cases hitem : json.getObjectItem (ascii "level") with
  | none => exact ⟨by simp, by simp⟩
  | some item =>
    cases hindex : messageIndex json with
    | none => exact ⟨by simp, by simp [hindex]⟩
    | some i =>
      by_cases hlevel : item.type = .number ∧ item.valueint ≤ 100 ∧ 0 ≤ item.valueint
      · have hvalid : item.type = .number ∧ 0 ≤ item.valueint ∧ item.valueint ≤ 100 :=
          ⟨hlevel.1, hlevel.2.2, hlevel.2.1⟩
        simp only [if_pos hlevel]
        exact ⟨by simp [ledOf, hindex, hvalid], by simp [ledOf, hindex]⟩
      · have hvalid : ¬ (item.type = .number ∧ 0 ≤ item.valueint ∧ item.valueint ≤ 100) :=
          fun h => hlevel ⟨h.1, h.2.2, h.2.1⟩
        simp only [if_neg hlevel]
        refine ⟨by simp, ?_⟩
        rintro ⟨item', hitem', h⟩
        cases hitem'
        exact absurd h hvalid

theorem commandToggle_calls (json : CJson) : CommandCalls json True (commandToggle json).2 := by
  unfold commandToggle
  cases hindex : messageIndex json with
  | none => exact ⟨by simp, by simp [hindex]⟩
  | some i => exact ⟨by simp [ledOf, hindex], by simp [ledOf, hindex]⟩

/-- The calls of a `POST` are about the LED that `messageIndex` names. -/
theorem post_calls (json : CJson) :
    CommandCalls json (ValidPost json) (processLedPwmAppJsonPostCommands json).2 := by
  have hlevel : ascii "set individual led level state" ≠
      ascii "set individual led on/off state" := by decide
  have htoggle : ascii "toggle individual switch on/off state" ≠
      ascii "set individual led on/off state" := by decide
  have htoggle' : ascii "toggle individual switch on/off state" ≠
      ascii "set individual led level state" := by decide
  have hcongr : ∀ {p q : Prop} {calls : List LedCall}, (p ↔ q) → CommandCalls json p calls →
      CommandCalls json q calls := by
    intro p q calls hpq h
    rwa [← hpq]
  rw [processPost_eq]
  unfold ValidPost
  by_cases h₁ : stringItem json (ascii "command") = some (ascii "set individual led on/off state")
  · rw [if_pos h₁]
    refine hcongr ?_ (commandOnOff_calls json)
    simp [h₁, hlevel.symm, htoggle.symm]
  rw [if_neg h₁]
  by_cases h₂ : stringItem json (ascii "command") = some (ascii "set individual led level state")
  · rw [if_pos h₂]
    refine hcongr ?_ (commandLevel_calls json)
    simp [h₂, hlevel, htoggle'.symm]
  rw [if_neg h₂]
  by_cases h₃ : stringItem json (ascii "command") =
      some (ascii "toggle individual switch on/off state")
  · rw [if_pos h₃]
    refine hcongr ?_ (commandToggle_calls json)
    simp [h₃]
  · rw [if_neg h₃]
    exact ⟨by simp, by simp [h₁, h₂, h₃]⟩

/-! ## The condition -/

/-- The item `led_index` of a message is a number whose `valueint` is `z`. -/
def HasIndex (json : CJson) (z : ℤ) : Prop :=
  ∃ item, json.getObjectItem (ascii "led_index") = some item ∧ item.type = .number ∧
    item.valueint = z

theorem messageIndex_eq_some {json : CJson} {i : ℕ} :
    messageIndex json = some i ↔ i < maxNumOfLedPwmSw ∧ HasIndex json i := by
  unfold messageIndex HasIndex
  cases json.getObjectItem (ascii "led_index") with
  | none => simp
  | some item =>
    by_cases hitem : item.type = .number ∧ item.valueint < maxNumOfLedPwmSw ∧ 0 ≤ item.valueint
    · obtain ⟨htype, hlt, hle⟩ := hitem
      simp only [htype, hlt, hle, and_self, if_true, Option.some.injEq, exists_eq_left', true_and]
      omega
    · simp only [if_neg hitem, Option.some.injEq, exists_eq_left', reduceCtorEq, false_iff]
      rintro ⟨hlt, htype, hvalue⟩
      exact hitem ⟨htype, by omega, by omega⟩

theorem getLookup_eq_some {json : CJson} {z : ℤ} :
    getLookup json = some z ↔
      getCommand json = .individual ∧ z < maxNumOfLedPwmSw ∧ HasIndex json z := by
  unfold getLookup HasIndex
  by_cases hcommand : getCommand json = .individual
  · rw [if_pos hcommand]
    cases json.getObjectItem (ascii "led_index") with
    | none => simp
    | some item =>
      by_cases hitem : item.valueint < maxNumOfLedPwmSw ∧ item.type = .number
      · obtain ⟨hlt, htype⟩ := hitem
        simp only [htype, hlt, hcommand, and_self, if_true, Option.some.injEq, exists_eq_left',
          true_and]
        constructor
        · rintro rfl
          exact ⟨hlt, rfl⟩
        · exact fun h => h.2
      · simp only [if_neg hitem, hcommand, Option.some.injEq, exists_eq_left', reduceCtorEq,
          false_iff, true_and]
        rintro ⟨hlt, htype, rfl⟩
        exact hitem ⟨hlt, htype⟩
  · simp [hcommand]

/-- A message looks the table up safely exactly if a number that a valid `POST` gives for an LED is
whole where cutting it off leaves the number of an LED, and a number that a `GET` gives for an LED
is that of an LED where cutting it off leaves less than the number of LEDs. -/
theorem indexSafe_iff {beyond : JsonDouble → ℤ} (r : Received beyond) :
    IndexSafe r ↔ ∀ item, r.json.getObjectItem (ascii "led_index") = some item →
      item.type = .number →
      (ValidPost r.json → 0 ≤ castInt beyond r.valuedouble →
        castInt beyond r.valuedouble < maxNumOfLedPwmSw →
        r.valuedouble = .finite (castInt beyond r.valuedouble)) ∧
      (getCommand r.json = .individual → castInt beyond r.valuedouble < maxNumOfLedPwmSw →
        0 ≤ castInt beyond r.valuedouble ∧
          r.valuedouble = .finite (castInt beyond r.valuedouble)) := by
  have hindex : ∀ z, HasIndex r.json z → z = castInt beyond r.valuedouble := by
    rintro z ⟨item, hitem, htype, rfl⟩
    exact r.valueint_eq item hitem htype
  constructor
  · intro h item hitem htype
    have hhas : HasIndex r.json (castInt beyond r.valuedouble) :=
      ⟨item, hitem, htype, r.valueint_eq item hitem htype⟩
    constructor
    · intro hvalid hle hlt
      obtain ⟨i, hi⟩ := Int.eq_ofNat_of_zero_le hle
      have hmessage : messageIndex r.json = some i :=
        messageIndex_eq_some.mpr ⟨by omega, by rw [← hi]; exact hhas⟩
      -- a valid command with a usable index makes a call, which then has this index
      obtain ⟨call, hcall, hled⟩ := (post_calls r.json).complete hvalid i hmessage
      obtain ⟨j, -, hj, hdouble⟩ := h.post call hcall
      rw [hled] at hj
      cases hj
      rw [hi, hdouble]
      rfl
    · intro hcommand hlt
      have hlookup := getLookup_eq_some.mpr ⟨hcommand, hlt, hhas⟩
      obtain ⟨hle, -, hdouble⟩ := h.get _ hlookup
      exact ⟨hle, hdouble⟩
  · intro h
    constructor
    · intro call hcall
      obtain ⟨hvalid, i, hmessage, hled⟩ := (post_calls r.json).sound call hcall
      -- the index of the call is the truncated number of the message
      obtain ⟨hlt, hhas⟩ := messageIndex_eq_some.mp hmessage
      have hi := hindex i hhas
      obtain ⟨item, hitem, htype, -⟩ := hhas
      have hdouble := (h item hitem htype).1 hvalid (by omega) (by omega)
      rw [← hi] at hdouble
      exact ⟨i, hlt, hled, hdouble⟩
    · intro z hlookup
      obtain ⟨hcommand, hlt, hhas⟩ := getLookup_eq_some.mp hlookup
      have hz := hindex z hhas
      obtain ⟨item, hitem, htype, -⟩ := hhas
      obtain ⟨hle, hdouble⟩ := (h item hitem htype).2 hcommand (by omega)
      rw [← hz] at hle hdouble
      exact ⟨hle, hlt, hdouble⟩

/-- A `GET` for the LED -1. -/
def getBelow : Received fun _ => 0 where
  json := .item none .object 0 []
    [.item (some (ascii "command")) .string 0 (ascii "get individual led status") [],
      .item (some (ascii "led_index")) .number (-1) [] []]
  valuedouble := .finite (-1)
  valueint_eq := by
    intro item hitem _
    cases hitem
    decide +kernel

/-- It reads in front of the table. -/
theorem not_indexSafe_getBelow : ¬ IndexSafe getBelow := by
  intro h
  have hlookup : getLookup getBelow.json = some (-1) := by decide
  exact absurd (h.get (-1) hlookup).1 (by decide)

end WLink.App
