import WLink.Led.Routes
import WLink.Net.Network
import WLink.Misc.CJsonHeap

/-!
# The memory of the handlers

The CGI handlers of `LED_PWM_APP.c` and `NeonAppInterface.c`, `LED_PWM_Do_Report` and
`Process_Websocket_Incomming_Message` with the JSON trees and buffers that they allocate. What
they make of a request is taken from `Led.App` and `Net.Network`; the state here is the heap and
the number of calls of `send`. The texts that are sent are left out.

* `httpdSendCgiResponseMem`, `sendJsonMem` -- sending an answer
* `ledHandlerMem`, `networkHandlerMem`, `ledPwmCgiRootMem` -- the CGI handlers
* `ledPwmDoReportMem`, `processWebsocketIncommingMessageMem` -- messages
-/

namespace WLink.App

open WLink.Lib WLink.Misc WLink.Httpd WLink.Led WLink.Net

/-- What the calls out of the handlers come to: those of `mem_Malloc` and `send` by their number.
`clients` WebSockets are open, and `srcOpen` says whether the sender of a message is one. -/
structure HandlerEnv extends CJsonEnv where
  sendOk : ℕ → Bool
  clients : ℕ
  srcOpen : Bool

/-- A computation with a heap, and the number of calls of `send`. -/
abbrev HandlerM (α : Type) := HeapM ℕ α

section

variable (env : HandlerEnv)

/-! ## Sending -/

/-- `send`: whether the result is not negative. -/
def send : HandlerM Bool := onBase (ExceptT.mk fun n => (.ok (env.sendOk n), n + 1))

/-- `HTTPd_Send_CGI_Response` -/
def httpdSendCgiResponseMem (hasData : Bool) : HandlerM Unit := do
  match ← cJsonMalloc env.toCJsonEnv with
  | none => pure ()
  | some httpCmdBuf =>
    let ok ← send env
    release httpCmdBuf
    if ok && hasData then
      let _socketStatus ← send env
      pure ()
    else pure ()

/-- The frames of a message to some open WebSockets, a header and a payload for each. -/
def sendFrames : ℕ → HandlerM Unit
  | 0 => pure ()
  | n + 1 => do
    let _headerStatus ← send env
    let _payloadStatus ← send env
    sendFrames n

/-- `if (need_delete_json == true) cJSON_Delete(data)` -/
def deleteIf (needDelete : Bool) (data : CJsonNode) : HandlerM Unit :=
  if needDelete then cJsonDelete data else pure ()

/-- What `HTTPd_Send_CGI_JSON_Response` and the two functions for WebSockets share. -/
def sendJsonMem (sendText : HandlerM Unit) (data : CJsonNode) (needDelete : Bool) :
    HandlerM Unit := do
  match ← cJsonPrint env.toCJsonEnv data with
  | none => deleteIf needDelete data
  | some jsonStr =>
    deleteIf needDelete data
    sendText
    release jsonStr

/-- `HTTPd_Send_CGI_JSON_Response` -/
def httpdSendCgiJsonResponseMem : CJsonNode → Bool → HandlerM Unit :=
  sendJsonMem env (httpdSendCgiResponseMem env true)

/-- `WebsocketServer_SendJSONMessage` -/
def websocketServerSendJsonMessageMem : CJsonNode → Bool → HandlerM Unit :=
  sendJsonMem env (sendFrames env (if env.srcOpen then 1 else 0))

/-- `WebsocketServer_SendBrocastJSONMessage` -/
def websocketServerSendBrocastJsonMessageMem : CJsonNode → Bool → HandlerM Unit :=
  sendJsonMem env (sendFrames env env.clients)

/-! ## Answers -/

/-- A member of a JSON object that is built. -/
def createField : JsonField → HandlerM (Option CJsonNode)
  | .bool b => cJsonCreateBool env.toCJsonEnv b
  | .number n => cJsonCreateNumber env.toCJsonEnv n
  | .string s => cJsonCreateString env.toCJsonEnv s

/-- `cJSON_AddBoolToObject`, `cJSON_AddNumberToObject` and `cJSON_AddStringToObject`, one after the
other. -/
def addFields : List (List UInt8 × JsonField) → CJsonNode → HandlerM CJsonNode
  | [], object => pure object
  | (name, field) :: fields, object => do
    let item ← createField env field
    let object ← cJsonAddItemToObject env.toCJsonEnv object name item
    addFields fields object

/-- What a handler answers: the status code, or `none` for `HTTPD_CGI_NOTFOUND`. -/
abbrev Answer := Option ℕ

/-- `return HTTPd_Send_CGI_Response(connData, statusCode, "txt", NULL, 0)` -/
def answer (statusCode : ℕ) : HandlerM Answer := do
  httpdSendCgiResponseMem env false
  pure (some statusCode)

/-- The answer with a JSON object that is filled by `fill`. -/
def answerJson (statusCode : ℕ) (fill : CJsonNode → HandlerM CJsonNode) : HandlerM Answer := do
  match ← cJsonCreateObject env.toCJsonEnv with
  | none => answer env 500
  | some rspJson =>
    let rspJson ← fill rspJson
    httpdSendCgiJsonResponseMem env rspJson true
    pure (some statusCode)

/-! ## The LEDs -/

/-- The fields for an LED in the list of all LEDs. -/
def ledFields (i : ℕ) (led : LedPwmStatus) : List (List UInt8 × JsonField) :=
  [(ascii "led_index", .number i), (ascii "on_off", .bool led.onOff),
    (ascii "level", .number (led.level / 10))]

/-- The `for` loop of `LED_PWM_Get_All_LED_Status`. -/
def addLeds (led : ℕ → LedPwmStatus) : List ℕ → CJsonNode → HandlerM (ℤ × CJsonNode)
  | [], lst => pure (0, lst)
  | i :: is, lst => do
    match ← cJsonCreateObject env.toCJsonEnv with
    | none => pure (-1, lst)
    | some individual =>
      let individual ← addFields env (ledFields i (led i)) individual
      addLeds led is (lst.append individual)

/-- `LED_PWM_Get_All_LED_Status`, from behind the creation of `pSubJson_main` on. The list is a
member of `pcjson` from the moment it has its name. -/
def ledStatusList (led : ℕ → LedPwmStatus) (pcjson : CJsonNode) : HandlerM (ℤ × CJsonNode) := do
  match ← cJsonCreateArray env.toCJsonEnv with
  | none => pure (-1, pcjson)
  | some lst =>
    let pcjson ← addFields env [(ascii "num_of_leds", .number maxNumOfLedPwmSw)] pcjson
    let lst ← nameItem env.toCJsonEnv (ascii "all_led_status") lst
    let (status, lst) ← addLeds env led (List.range maxNumOfLedPwmSw) lst
    pure (status, pcjson.append lst)

/-- `LED_PWM_Get_All_LED_Status`. Nothing is done with `pSubJson_main`. -/
def ledPwmGetAllLedStatusMem (led : ℕ → LedPwmStatus) (pcjson : CJsonNode) :
    HandlerM (ℤ × CJsonNode) := do
  match ← cJsonCreateObject env.toCJsonEnv with
  | none => pure (-1, pcjson)
  | some _pSubJsonMain => ledStatusList env led pcjson

/-- `LED_PWM_CGI_Root` -/
def ledPwmCgiRootMem (led : ℕ → LedPwmStatus) (req : CgiRequest) : HandlerM Answer :=
  if req.method = .get then
    answerJson env 200 fun rspJson => do
      let (_, rspJson) ← ledPwmGetAllLedStatusMem env led rspJson
      pure rspJson
  else answer env 404

/-- `LED_PWM_CGI_LED_Num` -/
def ledPwmCgiLedNumMem (req : CgiRequest) : HandlerM Answer :=
  if req.method = .get then
    answerJson env 200 (addFields env [(ascii "num_of_leds", .number maxNumOfLedPwmSw)])
  else answer env 404

/-- The `POST` branch of the handlers for one LED. The request is freed before the answer is
created, or before it is refused. -/
def ledPostMem (post : PostBody) (i : ℕ) (data : Option (List UInt8)) :
    HandlerM (Answer × List LedCall) :=
  match data with
  | none => do
    let r ← answer env 400
    pure (r, [])
  | some text => do
    match ← cJsonParse env.toCJsonEnv text with
    | none =>
      let r ← answer env 422
      pure (r, [])
    | some reqJson =>
      cJsonDelete reqJson
      match post i reqJson.json with
      | .error statusCode =>
        let r ← answer env statusCode
        pure (r, [])
      | .ok (calls, fields) =>
        let r ← answerJson env 201 (addFields env fields)
        pure (r, if r = some 201 then calls else [])

/-- What the handlers for one LED share. -/
def ledHandlerMem (post : PostBody) (get : GetBody) (led : ℕ → LedPwmStatus) (req : CgiRequest) :
    HandlerM (Answer × List LedCall) :=
  match httpdCgiPathStartsWith req.url (ascii "/LED_PWM/") with
  | none => pure (none, [])
  | some rest =>
    let i := httpdCgiParseUint rest
    if maxNumOfLedPwmSw ≤ i then pure (none, [])
    else if req.method = .post then ledPostMem env post i req.data
    else if req.method = .get then do
      let r ← answerJson env 200 (addFields env (get i (led i)))
      pure (r, [])
    else do
      let r ← answer env 404
      pure (r, [])

end

/-- What the handlers for one LED make of a `POST`; see `ledRoute_handler_eq`. -/
def postBody : LedRoute → PostBody
  | .any => fun i json => do
    let onOffItem ← jsonItem json (ascii "on_off")
    let levelItem ← jsonItem json (ascii "level")
    let onOff ← jsonBool onOffItem
    let v ← jsonNumber levelItem
    pure ([.setOnOff i onOff, .setLevel i (levelByte v * 10)],
      [ledIndexField i, (ascii "on_off", .bool onOff), (ascii "level", .number (levelByte v))])
  | .onOff => fun i json => do
    let onOffItem ← jsonItem json (ascii "on_off")
    let onOff ← jsonBool onOffItem
    pure ([.setOnOff i onOff], [ledIndexField i, (ascii "on_off", .bool onOff)])
  | .level => fun i json => do
    let levelItem ← jsonItem json (ascii "level")
    let v ← jsonNumber levelItem
    pure ([.setLevel i ((levelBool v).toNat * 10)],
      [ledIndexField i, (ascii "level", .bool (levelBool v))])

/-- What the handlers for one LED answer to a `GET`. -/
def getBody : LedRoute → GetBody
  | .any => fun i led => [(ascii "led_index", .number i), (ascii "on_off", .bool led.onOff),
      (ascii "level", .number (led.level / 10))]
  | .onOff => fun i led => [(ascii "led_index", .number i), (ascii "on_off", .bool led.onOff)]
  | .level => fun i led => [(ascii "led_index", .number i), (ascii "level", .number (led.level / 10))]

/-- These are the handlers of `Led.App`. -/
theorem ledRoute_handler_eq (r : LedRoute) : r.handler = ledHandler (postBody r) (getBody r) := by
  cases r with
  | any => rfl
  | level => rfl
  | onOff => rfl

section

variable (env : HandlerEnv)

/-! ## The network -/

/-- The `POST` branch of `Network_CGI_Root` and the handlers for one address. The request is freed
only if it is accepted. -/
def networkPostMem (members : List Member) (update : Update) (s : NeonState)
    (data : Option (List UInt8)) : HandlerM (Answer × NeonState) :=
  match data with
  | none => do
    let r ← answer env 400
    pure (r, s)
  | some text => do
    match ← cJsonParse env.toCJsonEnv text with
    | none =>
      let r ← answer env 422
      pure (r, s)
    | some reqJson =>
      let json := reqJson.json
      if members.any fun m => (json.getObjectItem m.name).isNone then
        let r ← answer env 422
        pure (r, s)
      else if members.any fun m => (json.getObjectItem m.name).any (·.type ≠ .string) then
        let r ← answer env 422
        pure (r, s)
      else
        cJsonDelete reqJson
        let r ← answerJson env 201
          (addFields env [(ascii "status", .string (ascii "success"))])
        pure (r, if r = some 201 then update (memberAddr json) s else s)

/-- What the handlers share. -/
def networkHandlerMem (members : List Member) (update : Update) (s : NeonState)
    (req : CgiRequest) : HandlerM (Answer × NeonState) :=
  if req.method = .post then networkPostMem env members update s req.data
  else if req.method = .get then do
    let r ← answerJson env 200 (addFields env (networkFields members s.netif.addr))
    pure (r, s)
  else do
    let r ← answer env 404
    pure (r, s)

/-! ## Messages -/

/-- `APP_TOPIC_NAME` -/
def appTopicName : List UInt8 := ascii "LED_PWM"

/-- The beginning of `LED_PWM_Do_Report`: the object with its first three members. -/
def reportHead : HandlerM (Option CJsonNode) := do
  match ← cJsonCreateObject env.toCJsonEnv with
  | none => pure none
  | some brocastJson =>
    let brocastJson ← addFields env
      [(ascii "method", .string (ascii "POST")), (ascii "topic", .string appTopicName),
        (ascii "command", .string (ascii "report leds status change"))] brocastJson
    pure (some brocastJson)

/-- The rest of `LED_PWM_Do_Report`. -/
def reportStatus (led : ℕ → LedPwmStatus) (viaWebsocket : Bool) :
    Option CJsonNode → HandlerM ℤ
  | none => pure (-1)
  | some brocastJson => do
    let (_, brocastJson) ← ledPwmGetAllLedStatusMem env led brocastJson
    if viaWebsocket then
      websocketServerSendBrocastJsonMessageMem env brocastJson false
      cJsonDelete brocastJson
      pure (-1)
    else
      cJsonDelete brocastJson
      pure (-1)

/-- `LED_PWM_Do_Report` -/
def ledPwmDoReportMem (led : ℕ → LedPwmStatus) (viaWebsocket : Bool) : HandlerM ℤ :=
  reportHead env >>= reportStatus env led viaWebsocket

/-- `Process_LED_PWM_APP_Incoming_JSON_POST_Msg` for a WebSocket. -/
def incomingPostMsgMem (led : ℕ → LedPwmStatus) (json : CJson) : HandlerM ℤ :=
  if 0 ≤ (processLedPwmAppJsonPostCommands json).1 then ledPwmDoReportMem env led true
  else pure (processLedPwmAppJsonPostCommands json).1

/-- The answer to "get individual led status", from the number of the LED on. An index below 0 is
looked up, too. -/
def individualStatusMem (led : ℕ → LedPwmStatus) (json : CJson) (rspJson : CJsonNode) :
    HandlerM (ℤ × CJsonNode) :=
  match json.getObjectItem (ascii "led_index") with
  | none => pure (0, rspJson)
  | some item =>
    if item.valueint < maxNumOfLedPwmSw ∧ item.type = .number then do
      let i ← Exec.lift (if 0 ≤ item.valueint then .ok item.valueint.toNat else .error .read)
      let rspJson ← addFields env (ledFields i (led i)) rspJson
      pure (0, rspJson)
    else pure (0, rspJson)

/-- The value of `"command"`, if it is a string. -/
def stringItem (json : CJson) (name : List UInt8) : Option (List UInt8) :=
  match json.getObjectItem name with
  | none => none
  | some item => if item.type = .string then some item.valuestring else none

/-- The commands of `Process_LED_PWM_APP_JSON_GET_Commands`. -/
inductive GetCommand
  | num
  | individual
  | all
  | other
deriving DecidableEq, Repr

def getCommand (json : CJson) : GetCommand :=
  if stringItem json (ascii "command") = some (ascii "get num of leds") then .num
  else if stringItem json (ascii "command") = some (ascii "get individual led status") then
    .individual
  else if stringItem json (ascii "command") = some (ascii "get all led status") then .all
  else .other

/-- `Process_LED_PWM_APP_JSON_GET_Commands` -/
def processLedPwmAppJsonGetCommandsMem (led : ℕ → LedPwmStatus) (json : CJson)
    (rspJson : CJsonNode) : HandlerM (ℤ × CJsonNode) :=
  match getCommand json with
  | .num => do
    let rspJson ← addFields env [(ascii "command", .string (ascii "get num of leds")),
      (ascii "num_of_leds", .number maxNumOfLedPwmSw)] rspJson
    pure (0, rspJson)
  | .individual => do
    let rspJson ← addFields env
      [(ascii "command", .string (ascii "get individual led tatus"))] rspJson
    individualStatusMem env led json rspJson
  | .all => do
    let (status, rspJson) ← ledPwmGetAllLedStatusMem env led rspJson
    let rspJson ← addFields env
      [(ascii "command", .string (ascii "get all led status"))] rspJson
    pure (status, rspJson)
  | .other => pure (0, rspJson)

/-- The callbacks for a topic: those of the LEDs, if they are `registered` and it is their topic. -/
def topicMatches (registered : Bool) (topic : List UInt8) : Bool :=
  registered && topic == appTopicName

/-- `Process_WebSocket_Post_Message` -/
def processWebSocketPostMessageMem (registered : Bool) (led : ℕ → LedPwmStatus)
    (topic : List UInt8) (json : CJson) : HandlerM ℤ :=
  if topicMatches registered topic then incomingPostMsgMem env led json else pure (-1)

/-- What `Process_Websocket_Incomming_Message` does with the answer to a `GET`. -/
def sendGetRsp (topic : List UInt8) (r : ℤ × CJsonNode) : HandlerM Unit := do
  if 0 ≤ r.1 then
    let rspJson ← addFields env
      [(ascii "method", .string (ascii "GET_RSP")), (ascii "topic", .string topic)] r.2
    websocketServerSendJsonMessageMem env rspJson true
  else cJsonDelete r.2

/-- The callback of `Process_WebSocket_Get_Message`. -/
def getMessageMem (registered : Bool) (led : ℕ → LedPwmStatus) (topic : List UInt8) (json : CJson)
    (rspJson : CJsonNode) : HandlerM (ℤ × CJsonNode) :=
  if topicMatches registered topic then processLedPwmAppJsonGetCommandsMem env led json rspJson
  else pure (-1, rspJson)

/-- The `GET` branch of `Process_Websocket_Incomming_Message`, from behind the creation of the
answer on. -/
def serveGetMem (registered : Bool) (led : ℕ → LedPwmStatus) (topic : List UInt8)
    (msgJson : CJsonNode) : Option CJsonNode → HandlerM Unit
  -- `return` without `cJSON_Delete(msg_json)`
  | none => pure ()
  | some rspJson => do
    let r ← getMessageMem env registered led topic msgJson.json rspJson
    sendGetRsp env topic r
    cJsonDelete msgJson

/-- What `Process_Websocket_Incomming_Message` does with a message. -/
def serveMessageMem (registered : Bool) (led : ℕ → LedPwmStatus) (msgJson : CJsonNode) :
    HandlerM Unit :=
  match stringItem msgJson.json (ascii "method"), stringItem msgJson.json (ascii "topic") with
  | some method, some topic =>
    if method = ascii "POST" then do
      let _status ← processWebSocketPostMessageMem env registered led topic msgJson.json
      cJsonDelete msgJson
    else if method = ascii "GET" then
      cJsonCreateObject env.toCJsonEnv >>= serveGetMem env registered led topic msgJson
    else cJsonDelete msgJson
  | _, _ => cJsonDelete msgJson

/-- `Process_Websocket_Incomming_Message` -/
def processWebsocketIncommingMessageMem (registered : Bool) (led : ℕ → LedPwmStatus)
    (payloadLength : ℕ) (msg : Option (List UInt8)) : HandlerM Unit :=
  match msg with
  | none => pure ()
  | some text =>
    if payloadLength = 0 then pure ()
    else do
      match ← cJsonParse env.toCJsonEnv text with
      | none => pure ()
      | some msgJson => serveMessageMem env registered led msgJson

end

end WLink.App
