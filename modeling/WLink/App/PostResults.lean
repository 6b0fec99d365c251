import WLink.App.MessageIndex
import WLink.Httpd.SendMessage
import WLink.Led.Interfaces

/-!
# The results of `POST` messages

`Process_LED_PWM_APP_Incoming_JSON_POST_Msg` hands a command that has been accepted on to
`LED_PWM_Do_Report` and returns the result of that, which is never anything but -1.
`tellsTruth_iff` says for which messages the result is right all the same. What the report costs in
memory is the matter of `App.Handlers`; here it is the text, if there is one, and what the open
WebSockets get of it.

* `ledPwmDoReport` -- the report
* `processLedPwmAppIncomingJsonPostMsg`
* `Accepted`, `Applies` -- what a message comes to
-/

namespace WLink.App

open WLink.Lib WLink.Misc WLink.Httpd WLink.Led WLink.Driver

/-- `App_Interface_Protocol`, with the values that have no name. -/
inductive AppInterfaceProtocol
  | none
  | webSocket
  | telnet
  | mqtt
  | other (value : ℕ)
deriving DecidableEq, Repr

/-- The protocols that have a case of their own. -/
def AppInterfaceProtocol.Known : AppInterfaceProtocol → Prop
  | .webSocket => True
  | .telnet => True
  | .mqtt => True
  | _ => False

/-- What a report depends on: whether its object can be created, the text of the object, which
depends on the LEDs, unless there is no memory for it, and `HTTPd_WebSocketd_Client_List`. -/
structure ReportEnv where
  created : Bool
  text : (ℕ → LedPwmStatus) → Option (List UInt8)
  clients : List (Option Conn)

def websockFlagNone : UInt8 := 0

/-- `HTTPd_WebsocketServer_Send_Brocast_Message`: what is given to `send`. -/
def websocketServerSendBrocastMessage (clients : List (Option Conn)) (payload : List UInt8) :
    List (List UInt8) :=
  clients.flatMap fun
    | none => []
    | some client =>
      if 0 ≤ client.socketId then
        websocketServerSendMessage client payload payload.length websockFlagNone
      else []

/-- `LED_PWM_Do_Report`: the result, and what is sent. -/
def ledPwmDoReport (env : ReportEnv) (led : ℕ → LedPwmStatus) (viaWebsocket : Bool) :
    ℤ × List (List UInt8) :=
  if env.created then
    if viaWebsocket then
      match env.text led with
      | none => (-1, [])
      | some jsonStr => (-1, websocketServerSendBrocastMessage env.clients jsonStr)
    else (-1, [])
  else (-1, [])

/-- The result of a message, the LEDs behind it, and what is sent. -/
structure PostOutcome where
  status : ℤ
  leds : LedState
  sent : List (List UInt8)

/-- `Process_LED_PWM_APP_JSON_POST_Commands`, and the report if it succeeds. -/
def postAndReport (b : Board) (drv : LedCall → ℕ → Env) (env : ReportEnv) (json : CJson)
    (s : LedState) : PostOutcome :=
  let out := processLedPwmAppJsonPostCommands json
  let leds := runCalls b drv s out.2
  if 0 ≤ out.1 then
    let report := ledPwmDoReport env leds.led true
    ⟨report.1, leds, report.2⟩
  else ⟨out.1, leds, []⟩

/-- `Process_LED_PWM_APP_Incoming_JSON_POST_Msg` -/
def processLedPwmAppIncomingJsonPostMsg (b : Board) (drv : LedCall → ℕ → Env) (env : ReportEnv)
    (protocol : AppInterfaceProtocol) (json : CJson) (s : LedState) : PostOutcome :=
  match protocol with
  | .webSocket => postAndReport b drv env json s
  | .telnet => postAndReport b drv env json s
  | .mqtt => postAndReport b drv env json s
  | _ => ⟨-1, s, []⟩

/-! ## What a message comes to -/

/-- One of the three commands. -/
def Recognised (json : CJson) : Prop :=
  stringItem json (ascii "command") = some (ascii "set individual led on/off state") ∨
  stringItem json (ascii "command") = some (ascii "set individual led level state") ∨
  stringItem json (ascii "command") = some (ascii "toggle individual switch on/off state")

/-- A message that is no command, or a command with valid arguments. -/
def Accepted (json : CJson) : Prop :=
  ¬ Recognised json ∨ ValidPost json ∧ ∃ i, messageIndex json = some i

/-- A command with valid arguments that has an effect: an LED that is off keeps its level. -/
def Applies (led : ℕ → LedPwmStatus) (json : CJson) : Prop :=
  ValidPost json ∧ ∃ i, messageIndex json = some i ∧
    (stringItem json (ascii "command") = some (ascii "set individual led level state") →
      (led i).onOff = true)

/-- Nobody gets the report: there is no memory for it, or no WebSocket that is open and has been
accepted. -/
def Silent (env : ReportEnv) (led : ℕ → LedPwmStatus) : Prop :=
  env.created = false ∨ (env.text led).getD [] = [] ∨
    ∀ client, some client ∈ env.clients →
      client.socketId < 0 ∨ client.websocketClient = false ∨ client.websocketAuth = false

/-- The result is not negative exactly for a command that has been applied, and a negative one means
that nothing has happened. -/
structure TellsTruth (s : LedState) (protocol : AppInterfaceProtocol) (json : CJson)
    (out : PostOutcome) : Prop where
  applied : 0 ≤ out.status ↔ protocol.Known ∧ Applies s.led json
  unchanged : out.status < 0 → out.leds.led = s.led
  quiet : out.status < 0 → out.sent = []

/-! ## The report -/

theorem sendMessage_eq_nil {client : Conn} {payload : List UInt8} {flags : UInt8} :
    websocketServerSendMessage client payload payload.length flags = [] ↔ payload = [] ∨
      client.socketId < 0 ∨ client.websocketClient = false ∨ client.websocketAuth = false := by
  unfold websocketServerSendMessage
  split
  · next hclient => simp [hclient]
  · next hclient =>
    split
    · next hlen => simp [List.length_eq_zero_iff.mp hlen]
    · next hlen =>
      have hne : payload ≠ [] := fun h => hlen (List.length_eq_zero_iff.mpr h)
      simp [hclient, hne]

theorem brocast_eq_nil {clients : List (Option Conn)} {payload : List UInt8} :
    websocketServerSendBrocastMessage clients payload = [] ↔ payload = [] ∨
      ∀ client, some client ∈ clients →
        client.socketId < 0 ∨ client.websocketClient = false ∨ client.websocketAuth = false := by
  unfold websocketServerSendBrocastMessage
  rw [List.flatMap_eq_nil_iff]
  constructor
  · intro h
    by_cases hpayload : payload = []
    · exact Or.inl hpayload
    refine Or.inr fun client hclient => ?_
    by_cases hopen : 0 ≤ client.socketId
    · have hnil := h (some client) hclient
      simp only [if_pos hopen] at hnil
      exact (sendMessage_eq_nil.mp hnil).resolve_left hpayload
    · exact Or.inl (Int.not_le.mp hopen)
  · rintro h (_ | client) hclient
    · rfl
    · dsimp only
      split
      · refine sendMessage_eq_nil.mpr ?_
        rcases h with hpayload | hall
        · exact Or.inl hpayload
        · exact Or.inr (hall client hclient)
      · rfl

/-- The result of a report is -1, whatever comes of it. -/
theorem ledPwmDoReport_fst (env : ReportEnv) (led : ℕ → LedPwmStatus) (viaWebsocket : Bool) :
    (ledPwmDoReport env led viaWebsocket).1 = -1 := by
  unfold ledPwmDoReport
  cases env.created <;> cases viaWebsocket <;> cases env.text led <;> rfl

theorem ledPwmDoReport_snd (env : ReportEnv) (led : ℕ → LedPwmStatus) :
    (ledPwmDoReport env led true).2 = [] ↔ Silent env led := by
  unfold ledPwmDoReport Silent
  cases env.created with
  | false => simp
  | true =>
    cases env.text led with
    | none => simp
    | some jsonStr =>
      simp only [if_true, Bool.true_eq_false, false_or, Option.getD_some]
      exact brocast_eq_nil

/-! ## The commands -/

/-- What the commands share: they succeed with one call, or fail without one. -/
structure CommandResult (json : CJson) (valid : Prop) (out : ℤ × List LedCall) : Prop where
  nonneg_iff : 0 ≤ out.1 ↔ valid ∧ ∃ i, messageIndex json = some i
  calls_of_neg : out.1 < 0 → out.2 = []

theorem commandOnOff_result (json : CJson) :
    CommandResult json (∃ item, json.getObjectItem (ascii "on_off") = some item ∧
      (item.type = .cTrue ∨ item.type = .cFalse)) (commandOnOff json) := by
  unfold commandOnOff
  cases hitem : json.getObjectItem (ascii "on_off") with
  | none => exact ⟨by simp, by simp⟩
  | some item =>
    cases hindex : messageIndex json with
    | none => exact ⟨by simp [hindex], by simp⟩
    | some i => cases htype : item.type <;> exact ⟨by simp [hindex, htype], by simp [htype]⟩

theorem commandLevel_result (json : CJson) :
    CommandResult json (∃ item, json.getObjectItem (ascii "level") = some item ∧
      item.type = .number ∧ 0 ≤ item.valueint ∧ item.valueint ≤ 100) (commandLevel json) := by
  unfold commandLevel
  cases hitem : json.getObjectItem (ascii "level") with
  | none => exact ⟨by simp, by simp⟩
  | some item =>
    cases hindex : messageIndex json with
    | none => exact ⟨by simp [hindex], by simp⟩
    | some i =>
      by_cases hlevel : item.type = .number ∧ item.valueint ≤ 100 ∧ 0 ≤ item.valueint
      · simp only [if_pos hlevel]
        exact ⟨by simp [hindex, hlevel], by simp⟩
      · simp only [if_neg hlevel]
        refine ⟨?_, by simp⟩
        simp only [Option.some.injEq, exists_eq_left', hindex, exists_eq', and_true]
        constructor
        · intro h
          exact absurd h (by decide)
        · exact fun h => absurd ⟨h.1, h.2.2, h.2.1⟩ hlevel

theorem commandToggle_result (json : CJson) : CommandResult json True (commandToggle json) := by
  unfold commandToggle
  cases hindex : messageIndex json with
  | none => exact ⟨by simp [hindex], by simp⟩
  | some i => exact ⟨by simp [hindex], by simp⟩

/-- The result of the commands tells apart what is accepted and what is not. -/
theorem post_status (json : CJson) :
    (0 ≤ (processLedPwmAppJsonPostCommands json).1 ↔ Accepted json) ∧
      ((processLedPwmAppJsonPostCommands json).1 < 0 →
        (processLedPwmAppJsonPostCommands json).2 = []) := by
  have hlevel : ascii "set individual led level state" ≠
      ascii "set individual led on/off state" := by decide
  have htoggle : ascii "toggle individual switch on/off state" ≠
      ascii "set individual led on/off state" := by decide
  have htoggle' : ascii "toggle individual switch on/off state" ≠
      ascii "set individual led level state" := by decide
  rw [processPost_eq]
  unfold Accepted Recognised ValidPost
  by_cases h₁ : stringItem json (ascii "command") = some (ascii "set individual led on/off state")
  · obtain ⟨hiff, hneg⟩ := commandOnOff_result json
    rw [if_pos h₁, hiff]
    exact ⟨by simp [h₁, hlevel.symm, htoggle.symm], hneg⟩
  rw [if_neg h₁]
  by_cases h₂ : stringItem json (ascii "command") = some (ascii "set individual led level state")
  · obtain ⟨hiff, hneg⟩ := commandLevel_result json
    rw [if_pos h₂, hiff]
    exact ⟨by simp [h₂, hlevel, htoggle'.symm], hneg⟩
  rw [if_neg h₂]
  by_cases h₃ : stringItem json (ascii "command") =
      some (ascii "toggle individual switch on/off state")
  · obtain ⟨hiff, hneg⟩ := commandToggle_result json
    rw [if_pos h₃, hiff]
    exact ⟨by simp [h₃], hneg⟩
  · rw [if_neg h₃]
    exact ⟨by simp [h₁, h₂, h₃], by simp⟩

/-- The command for a level calls for nothing but a level. -/
theorem commandLevel_setLevel {json : CJson} {call : LedCall} (h : call ∈ (commandLevel json).2) :
    ∃ i level, call = .setLevel i level := by
  unfold commandLevel at h
  cases hitem : json.getObjectItem (ascii "level") with
  | none => simp [hitem] at h
  | some item =>
    cases hindex : messageIndex json with
    | none => simp [hitem, hindex] at h
    | some i =>
      simp only [hitem, hindex] at h
      split at h
      · exact ⟨i, _, List.mem_singleton.mp h⟩
      · cases h

/-- A message that does not apply calls at most for the level of an LED that is off. -/
theorem calls_of_not_applies {led : ℕ → LedPwmStatus} {json : CJson} (h : ¬ Applies led json) :
    ∀ call ∈ (processLedPwmAppJsonPostCommands json).2,
      ∃ i level, call = .setLevel i level ∧ (led i).onOff = false := by
  intro call hcall
  obtain ⟨hvalid, i, hindex, hled⟩ := (post_calls json).sound call hcall
  have hoff : stringItem json (ascii "command") = some (ascii "set individual led level state") ∧
      (led i).onOff = false := by
    by_contra hnot
    refine h ⟨hvalid, i, hindex, fun hcommand => ?_⟩
    by_contra hled
    exact hnot ⟨hcommand, Bool.eq_false_of_not_eq_true hled⟩
  obtain ⟨hcommand, hoff⟩ := hoff
  have hne : stringItem json (ascii "command") ≠
      some (ascii "set individual led on/off state") := by
    rw [hcommand]
    decide
  rw [processPost_eq, if_neg hne, if_pos hcommand] at hcall
  obtain ⟨j, level, rfl⟩ := commandLevel_setLevel hcall
  cases hled
  exact ⟨i, level, rfl, hoff⟩

/-- Levels of LEDs that are off change nothing. -/
theorem runCalls_of_off (b : Board) (drv : LedCall → ℕ → Env) (s : LedState) {calls : List LedCall}
    (h : ∀ call ∈ calls, ∃ i level, call = .setLevel i level ∧ (s.led i).onOff = false) :
    runCalls b drv s calls = s := by
  unfold runCalls
  induction calls with
  | nil => rfl
  | cons call calls ih =>
    obtain ⟨i, level, rfl, hoff⟩ := h call List.mem_cons_self
    have hstep : ledStep b s (.setLevel i level, drv (.setLevel i level)) = s := by
      show ledPwmSetLedLevelStatus b _ i level s = s
      have hdim : ∀ env, dimLed b env level s i = s := fun _ => if_neg (by rw [hoff]; decide)
      unfold ledPwmSetLedLevelStatus
      rw [hdim, ite_self]
    rw [List.foldl_cons, hstep]
    exact ih fun call hcall => h call (List.mem_cons_of_mem _ hcall)

/-! ## The results -/

section

variable (b : Board) (drv : LedCall → ℕ → Env) (env : ReportEnv)

/-- The result of a message is negative, whatever comes of it. -/
theorem incomingPostMsg_status (protocol : AppInterfaceProtocol) (json : CJson) (s : LedState) :
    (processLedPwmAppIncomingJsonPostMsg b drv env protocol json s).status < 0 := by
  have hminus : (-1 : ℤ) < 0 := by decide
  have hreport : (postAndReport b drv env json s).status < 0 := by
    unfold postAndReport
    dsimp only
    split
    · exact (ledPwmDoReport_fst env _ true).trans_lt hminus
    · next hneg => exact Int.not_le.mp hneg
  cases protocol with
  | none => exact hminus
  | webSocket => exact hreport
  | telnet => exact hreport
  | mqtt => exact hreport
  | other value => exact hminus

/-- With a command that does not apply the LEDs stay as they are, and nothing is sent if it is
refused or nobody gets the report. -/
theorem postAndReport_of_not_applies {json : CJson} {s : LedState} (h : ¬ Applies s.led json) :
    (postAndReport b drv env json s).leds = s ∧
      ((postAndReport b drv env json s).sent = [] ↔ (Accepted json → Silent env s.led)) := by
  obtain ⟨haccepted, -⟩ := post_status json
  have hcalls := runCalls_of_off b drv s (calls_of_not_applies h)
  unfold postAndReport
  dsimp only
  rw [hcalls]
  split
  · next hstatus =>
    exact ⟨rfl, by rw [ledPwmDoReport_snd]; simp [haccepted.mp hstatus]⟩
  · next hstatus =>
    exact ⟨rfl, by simp [mt haccepted.mpr hstatus]⟩

/-- A negative result is right if nothing has happened. -/
theorem tellsTruth_of_neg {s : LedState} {protocol : AppInterfaceProtocol} {json : CJson}
    {out : PostOutcome} (hneg : out.status < 0) :
    TellsTruth s protocol json out ↔
      ¬ (protocol.Known ∧ Applies s.led json) ∧ out.leds.led = s.led ∧ out.sent = [] := by
  constructor
  · intro h
    exact ⟨fun happlied => Int.not_le.mpr hneg (h.applied.mpr happlied), h.unchanged hneg,
      h.quiet hneg⟩
  · rintro ⟨hnot, hleds, hsent⟩
    exact ⟨iff_of_false (Int.not_le.mpr hneg) hnot, fun _ => hleds, fun _ => hsent⟩

/-- The result of a message is right exactly if the protocol has no case for it, or the message is
no command that applies and nobody gets the report of one that is accepted. -/
theorem tellsTruth_iff (protocol : AppInterfaceProtocol) (json : CJson) (s : LedState) :
    TellsTruth s protocol json (processLedPwmAppIncomingJsonPostMsg b drv env protocol json s) ↔
      (protocol.Known → ¬ Applies s.led json ∧ (Accepted json → Silent env s.led)) := by
  rw [tellsTruth_of_neg (incomingPostMsg_status b drv env protocol json s)]
  have hcase : ¬ Applies s.led json ∧ (postAndReport b drv env json s).leds.led = s.led ∧
      (postAndReport b drv env json s).sent = [] ↔
        ¬ Applies s.led json ∧ (Accepted json → Silent env s.led) := by
    refine and_congr_right fun happlies => ?_
    obtain ⟨hleds, hsent⟩ := postAndReport_of_not_applies b drv env happlies
    rw [hleds, hsent, and_iff_right rfl]
  cases protocol with
  | none => simp [AppInterfaceProtocol.Known, processLedPwmAppIncomingJsonPostMsg]
  | webSocket =>
    simp only [AppInterfaceProtocol.Known, true_and, true_imp_iff]
    exact hcase
  | telnet =>
    simp only [AppInterfaceProtocol.Known, true_and, true_imp_iff]
    exact hcase
  | mqtt =>
    simp only [AppInterfaceProtocol.Known, true_and, true_imp_iff]
    exact hcase
  | other value => simp [AppInterfaceProtocol.Known, processLedPwmAppIncomingJsonPostMsg]

end

/-- The command to toggle the first LED. -/
def toggleFirst : CJson :=
  .item none .object 0 []
    [.item (some (ascii "command")) .string 0 (ascii "toggle individual switch on/off state") [],
      .item (some (ascii "led_index")) .number 0 [] []]

/-- It is applied, and answered with -1. -/
theorem not_tellsTruth_toggleFirst :
    ¬ TellsTruth .reset .webSocket toggleFirst
      (processLedPwmAppIncomingJsonPostMsg stm32f207 (fun _ _ => runningEnv)
        ⟨true, fun _ => none, []⟩ .webSocket toggleFirst .reset) := by
  intro h
  have happlies : Applies LedState.reset.led toggleFirst :=
    ⟨Or.inr (Or.inr (by decide)), 0, by decide, fun hcommand => absurd hcommand (by decide)⟩
  have hstatus := h.applied.mpr ⟨trivial, happlies⟩
  exact absurd hstatus (Int.not_le.mpr (incomingPostMsg_status _ _ _ _ _ _))

end WLink.App
