import WLink.Led.Api
import WLink.Httpd.Cgi
import WLink.Misc.CJson

/-!
# The requests that reach the LED layer

The handlers of `LED_PWM_APP.c`, as the answer they give and the calls of the LED layer they
make. The JSON parser and the allocation of the answer are arguments.

* `ledPwmCgiLedAnyNumber`, `ledPwmCgiLedOnOffAnyNumber`, `ledPwmCgiLedLevelAnyNumber` -- HTTP
* `processLedPwmAppJsonPostCommands` -- messages
* `LedRequest.calls` -- the calls that a request makes
-/

namespace WLink.Led

open WLink.Lib WLink.Misc WLink.Httpd

/-! ## HTTP -/

/-- What a handler makes of the JSON of a `POST`: an error status, or calls and the fields of
the answer. -/
abbrev PostBody := ℕ → CJson → Except ℕ (List LedCall × List (List UInt8 × JsonField))

/-- The fields of the answer to a `GET`. -/
abbrev GetBody := ℕ → LedPwmStatus → List (List UInt8 × JsonField)

/-- The `POST` branch of the handlers. -/
def ledPost (parse : List UInt8 → Option CJson) (memOk : Bool) (post : PostBody) (i : ℕ)
    (data : Option (List UInt8)) : CgiReply × List LedCall :=
  match data with
  | none => (.response 400, [])
  | some bytes =>
    match parse bytes with
    | none => (.response 422, [])
    | some json =>
      match post i json with
      | .error statusCode => (.response statusCode, [])
      | .ok (calls, fields) => if memOk then (.json 201 fields, calls) else (.response 500, [])

/-- What the handlers for one LED share: the index from the URL and the branches by method. -/
def ledHandler (post : PostBody) (get : GetBody) (parse : List UInt8 → Option CJson)
    (memOk : Bool) (led : ℕ → LedPwmStatus) (req : CgiRequest) : CgiReply × List LedCall :=
  match httpdCgiPathStartsWith req.url (ascii "/LED_PWM/") with
  | none => (.notFound, [])
  | some rest =>
    let i := httpdCgiParseUint rest
    if maxNumOfLedPwmSw ≤ i then (.notFound, [])
    else if req.method = .post then ledPost parse memOk post i req.data
    else if req.method = .get then
      if memOk then (.json 200 (get i (led i)), []) else (.response 500, [])
    else (.response 404, [])

/-- An item that has to be there; the handlers answer 400 if it is not. -/
def jsonItem (json : CJson) (name : List UInt8) : Except ℕ CJson :=
  match json.getObjectItem name with
  | none => .error 400
  | some item => .ok item

/-- An item that has to be `true` or `false`. -/
def jsonBool (item : CJson) : Except ℕ Bool :=
  match item.type with
  | .cTrue => .ok true
  | .cFalse => .ok false
  | _ => .error 400

/-- An item that has to be a number. -/
def jsonNumber (item : CJson) : Except ℕ ℤ :=
  if item.type = .number then .ok item.valueint else .error 400

/-- `cJSON_AddBoolToObject(rsp_json, "led_index", led_index)` -/
def ledIndexField (i : ℕ) : List UInt8 × JsonField := (ascii "led_index", .bool (i ≠ 0))

/-- `uint8_t sw_level = level->valueint` -/
def levelByte (v : ℤ) : ℕ := (v % 256).toNat

/-- `bool sw_level = level->valueint` -/
def levelBool (v : ℤ) : Bool := v ≠ 0

/-- `LED_PWM_CGI_LED_Any_Number` -/
def ledPwmCgiLedAnyNumber : (List UInt8 → Option CJson) → Bool → (ℕ → LedPwmStatus) →
    CgiRequest → CgiReply × List LedCall :=
  ledHandler
    (fun i json => do
      let onOffItem ← jsonItem json (ascii "on_off")
      let levelItem ← jsonItem json (ascii "level")
      let onOff ← jsonBool onOffItem
      let v ← jsonNumber levelItem
      pure ([.setOnOff i onOff, .setLevel i (levelByte v * 10)],
        [ledIndexField i, (ascii "on_off", .bool onOff), (ascii "level", .number (levelByte v))]))
    (fun i led => [(ascii "led_index", .number i), (ascii "on_off", .bool led.onOff),
      (ascii "level", .number (led.level / 10))])

/-- `LED_PWM_CGI_LED_OnOff_Any_Number` -/
def ledPwmCgiLedOnOffAnyNumber : (List UInt8 → Option CJson) → Bool → (ℕ → LedPwmStatus) →
    CgiRequest → CgiReply × List LedCall :=
  ledHandler
    (fun i json => do
      let onOffItem ← jsonItem json (ascii "on_off")
      let onOff ← jsonBool onOffItem
      pure ([.setOnOff i onOff], [ledIndexField i, (ascii "on_off", .bool onOff)]))
    (fun i led => [(ascii "led_index", .number i), (ascii "on_off", .bool led.onOff)])

/-- `LED_PWM_CGI_LED_Level_Any_Number`: the level is kept in a `bool`. -/
def ledPwmCgiLedLevelAnyNumber : (List UInt8 → Option CJson) → Bool → (ℕ → LedPwmStatus) →
    CgiRequest → CgiReply × List LedCall :=
  ledHandler
    (fun i json => do
      let levelItem ← jsonItem json (ascii "level")
      let v ← jsonNumber levelItem
      pure ([.setLevel i ((levelBool v).toNat * 10)],
        [ledIndexField i, (ascii "level", .bool (levelBool v))]))
    (fun i led => [(ascii "led_index", .number i), (ascii "level", .number (led.level / 10))])

/-! ## Messages -/

/-- The number of an LED in a message: an item of type number whose value is in range. -/
def messageIndex (json : CJson) : Option ℕ :=
  match json.getObjectItem (ascii "led_index") with
  | none => none
  | some item =>
    if item.type = .number ∧ item.valueint < maxNumOfLedPwmSw ∧ 0 ≤ item.valueint then
      some item.valueint.toNat
    else none

/-- The command "set individual led on/off state". -/
def commandOnOff (json : CJson) : ℤ × List LedCall :=
  match json.getObjectItem (ascii "on_off"), messageIndex json with
  | some onOffItem, some i =>
    match onOffItem.type with
    | .cTrue => (0, [.setOnOff i true])
    | .cFalse => (0, [.setOnOff i false])
    | _ => (-1, [])
  | _, _ => (-1, [])

/-- The command "set individual led level state". -/
def commandLevel (json : CJson) : ℤ × List LedCall :=
  match json.getObjectItem (ascii "level"), messageIndex json with
  | some levelItem, some i =>
    if levelItem.type = .number ∧ levelItem.valueint ≤ 100 ∧ 0 ≤ levelItem.valueint then
      (0, [.setLevel i (levelItem.valueint.toNat * 10)])
    else (-1, [])
  | _, _ => (-1, [])

/-- The command "toggle individual switch on/off state". -/
def commandToggle (json : CJson) : ℤ × List LedCall :=
  match messageIndex json with
  | some i => (0, [.toggle i])
  | none => (-1, [])

/-- `Process_LED_PWM_APP_JSON_POST_Commands` -/
def processLedPwmAppJsonPostCommands (json : CJson) : ℤ × List LedCall :=
  match json.getObjectItem (ascii "command") with
  | none => (0, [])
  | some cmd =>
    if cmd.type ≠ .string then (0, [])
    else if cmd.valuestring = ascii "set individual led on/off state" then commandOnOff json
    else if cmd.valuestring = ascii "set individual led level state" then commandLevel json
    else if cmd.valuestring = ascii "toggle individual switch on/off state" then
      commandToggle json
    else (0, [])

/-! ## Requests -/

/-- What reaches the LED layer from outside: the initialisation of the application, a request to
one of the handlers or a message. -/
inductive LedRequest
  | deviceInit
  | any (memOk : Bool) (req : CgiRequest)
  | onOff (memOk : Bool) (req : CgiRequest)
  | level (memOk : Bool) (req : CgiRequest)
  | message (json : CJson)

/-- The calls of the LED layer that a request makes; they do not depend on the state of the
LEDs, which only the answers show. -/
def LedRequest.calls (parse : List UInt8 → Option CJson) : LedRequest → List LedCall
  | .deviceInit => [.init]
  | .any memOk req => (ledPwmCgiLedAnyNumber parse memOk (fun _ => .zero) req).2
  | .onOff memOk req => (ledPwmCgiLedOnOffAnyNumber parse memOk (fun _ => .zero) req).2
  | .level memOk req => (ledPwmCgiLedLevelAnyNumber parse memOk (fun _ => .zero) req).2
  | .message json => (processLedPwmAppJsonPostCommands json).2

end WLink.Led
