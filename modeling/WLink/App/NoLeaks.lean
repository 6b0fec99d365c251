import WLink.App.Handlers
import WLink.Misc.CJsonOwnership
import WLink.Httpd.PageMemory

/-!
# Do the handlers leak?

Most handlers end with the blocks that were there, whatever is requested and whatever fails. The
others lose a tree or a file, and exactly when is said by `HandlerCall.Leaks`:
`HandlerCall.keepsBlocks_iff`.
-/

namespace WLink.App

open WLink.Lib WLink.Misc WLink.Httpd WLink.Led WLink.Net Exec

section

variable (env : HandlerEnv)

/-! ## Answers -/

theorem transfers_send (pre : List ℕ) : Transfers noFault pre (send env) (fun _ => pre) :=
  Transfers.onBase (fun _ _ h => nomatch h) pre

theorem transfers_httpdSendCgiResponseMem (hasData : Bool) :
    Transfers noFault [] (httpdSendCgiResponseMem env hasData) (fun _ => []) := by
  refine transfers_malloc_bind env.toCJsonEnv (.pure () fun _ => []) fun b => ?_
  refine (transfers_send env [b]).bind fun ok => (transfers_release b).bind fun _ => ?_
  refine Transfers.ite (fun _ => ?_) fun _ => .pure () fun _ => []
  exact (transfers_send env []).bind fun _ => .pure () fun _ => []

theorem transfers_sendFrames (n : ℕ) :
    Transfers noFault [] (sendFrames env n) (fun _ => []) := by
  induction n with
  | zero => exact Transfers.pure () fun _ => []
  | succ n ih =>
    exact (transfers_send env []).bind fun _ => (transfers_send env []).bind fun _ => ih

/-- The blocks of a tree that is to be deleted. -/
def ifDeleted (needDelete : Bool) (data : CJsonNode) : List ℕ :=
  if needDelete then data.blocks else []

theorem transfers_sendJsonMem {sendText : HandlerM Unit}
    (htext : Transfers noFault [] sendText (fun _ => [])) (data : CJsonNode) (needDelete : Bool) :
    Transfers noFault (ifDeleted needDelete data) (sendJsonMem env sendText data needDelete)
      (fun _ => []) := by
  have hdelete : Transfers noFault (ifDeleted needDelete data) (deleteIf needDelete data)
      (fun _ => []) := by
    cases needDelete with
    | true => exact transfers_cJsonDelete data
    | false => exact Transfers.pure () fun _ => []
  refine (transfers_cJsonPrint env.toCJsonEnv data).bind_frame
    (r := ifDeleted needDelete data) fun jsonStr => ?_
  cases jsonStr with
  | none => exact hdelete
  | some jsonStr =>
    have hperm : ([jsonStr] ++ ifDeleted needDelete data).Perm
        (ifDeleted needDelete data ++ [jsonStr]) := List.perm_append_comm
    refine Transfers.perm ?_ hperm fun _ => .refl _
    exact hdelete.andThen (htext.bind_frame (r := [jsonStr]) fun _ => transfers_release jsonStr)

theorem transfers_createField (field : JsonField) :
    Transfers noFault [] (createField env field) treeBlocks := by
  cases field with
  | bool b => exact transfers_cJsonCreateBool _ b
  | number n => exact transfers_cJsonCreateNumber _ n
  | string s => exact transfers_cJsonCreateString _ s

theorem transfers_addFields (fields : List (List UInt8 × JsonField)) (object : CJsonNode) :
    Transfers noFault object.blocks (addFields env fields object) CJsonNode.blocks := by
  induction fields generalizing object with
  | nil => exact Transfers.pure object CJsonNode.blocks
  | cons field fields ih =>
    refine (transfers_createField env field.2).bind_frame (r := object.blocks) fun item => ?_
    exact (transfers_cJsonAddItemToObject _ object _ item).bind fun object => ih object

theorem transfers_answer (statusCode : ℕ) :
    Transfers noFault [] (answer env statusCode) (fun _ => []) :=
  (transfers_httpdSendCgiResponseMem env false).bind fun _ => .pure _ fun _ => []

/-- The tree of an answer is freed once it has been filled. -/
theorem transfers_answerFilled (statusCode : ℕ) (rspJson : CJsonNode) :
    Transfers noFault rspJson.blocks
      (httpdSendCgiJsonResponseMem env rspJson true >>= fun _ => pure (some statusCode))
      (fun _ => []) :=
  (transfers_sendJsonMem env (transfers_httpdSendCgiResponseMem env true) rspJson true).bind
    fun _ => .pure _ fun _ => []

theorem transfers_answerJson (statusCode : ℕ) {fill : CJsonNode → HandlerM CJsonNode}
    (hfill : ∀ rspJson, Transfers noFault rspJson.blocks (fill rspJson) CJsonNode.blocks) :
    Transfers noFault [] (answerJson env statusCode fill) (fun _ => []) := by
  refine (transfers_cJsonCreateObject env.toCJsonEnv).bind fun rspJson => ?_
  cases rspJson with
  | none => exact transfers_answer env 500
  | some rspJson =>
    exact (hfill rspJson).bind fun rspJson => transfers_answerFilled env statusCode rspJson

/-! ## The list of all LEDs -/

theorem transfers_addLeds (led : ℕ → LedPwmStatus) (is : List ℕ) (lst : CJsonNode) :
    Transfers noFault lst.blocks (addLeds env led is lst) (fun r => r.2.blocks) := by
  induction is generalizing lst with
  | nil => exact Transfers.pure (0, lst) fun r => r.2.blocks
  | cons i is ih =>
    refine (transfers_cJsonCreateObject env.toCJsonEnv).bind_frame (r := lst.blocks)
      fun individual => ?_
    cases individual with
    | none => exact Transfers.pure (-1, lst) fun r => r.2.blocks
    | some individual =>
      refine (transfers_addFields env _ individual).bind_frame (r := lst.blocks)
        fun individual => ?_
      refine Transfers.perm (ih (lst.append individual)) ?_ fun _ => .refl _
      rw [CJsonNode.blocks_append]
      exact List.perm_append_comm

theorem transfers_ledStatusList (led : ℕ → LedPwmStatus) (pcjson : CJsonNode) :
    Transfers noFault pcjson.blocks (ledStatusList env led pcjson) (fun r => r.2.blocks) := by
  refine (transfers_cJsonCreateArray env.toCJsonEnv).bind_frame (r := pcjson.blocks) fun lst => ?_
  cases lst with
  | none => exact Transfers.pure (-1, pcjson) fun r => r.2.blocks
  | some lst =>
    have hperm : (lst.blocks ++ pcjson.blocks).Perm (pcjson.blocks ++ lst.blocks) :=
      List.perm_append_comm
    refine Transfers.perm ?_ hperm fun _ => .refl _
    refine (transfers_addFields env _ pcjson).bind_frame (r := lst.blocks) fun pcjson => ?_
    refine Transfers.perm ?_ List.perm_append_comm fun _ => .refl _
    refine (transfers_nameItem _ _ lst).bind_frame (r := pcjson.blocks) fun lst => ?_
    refine (transfers_addLeds env led _ lst).bind_frame (r := pcjson.blocks) fun r => ?_
    refine Transfers.pure_perm ?_
    rw [CJsonNode.blocks_append]
    exact List.perm_append_comm

theorem treeBlocks_ne_nil (tree : Option CJsonNode) : treeBlocks tree ≠ [] ↔ tree.isSome := by
  cases tree with
  | none => exact ⟨fun h => absurd rfl h, nofun⟩
  | some tree =>
    cases tree with
    | node item child => exact ⟨fun _ => rfl, fun _ => List.cons_ne_nil _ _⟩

/-- Whether an object is created is decided by the number of the allocation. -/
theorem reaches_cJsonCreateObject (s : Heaped ℕ) (L : Bool → ℕ → Prop) :
    Reaches (cJsonCreateObject env.toCJsonEnv) s (fun r s' => L r.isSome s'.mallocs) ↔
      L (env.mallocOk s.mallocs) (s.mallocs + 1) := by
  have hexec : exec (cJsonCreateObject env.toCJsonEnv) s =
      if env.mallocOk s.mallocs then
        (.ok (some (.node { freshItem s.ledger.next with type := .object } [])),
          { s with ledger := s.ledger.malloc, mallocs := s.mallocs + 1 })
      else (.ok none, { s with mallocs := s.mallocs + 1 }) := by
    unfold cJsonCreateObject cJsonCreate cJsonNewItem cJsonMalloc
    simp only [bind_assoc, pure_bind]
    rw [exec_bind, exec_alloc]
    cases env.mallocOk s.mallocs <;> rfl
  unfold Reaches
  rw [hexec]
  cases env.mallocOk s.mallocs with
  | true =>
    constructor
    · rintro ⟨r, s', h, hL⟩
      cases h
      exact hL
    · exact fun hL => ⟨_, _, rfl, hL⟩
  | false =>
    constructor
    · rintro ⟨r, s', h, hL⟩
      cases h
      exact hL
    · exact fun hL => ⟨_, _, rfl, hL⟩

/-- `pSubJson_main` is lost, if there is memory for it. -/
theorem loses_ledPwmGetAllLedStatusMem (led : ℕ → LedPwmStatus) (pcjson : CJsonNode) :
    Loses pcjson.blocks (ledPwmGetAllLedStatusMem env led pcjson) (fun r => r.2.blocks)
      (fun s => env.mallocOk s.mallocs = true) := by
  have hcreate : Transfers notHang pcjson.blocks
      (cJsonCreateObject env.toCJsonEnv : HandlerM (Option CJsonNode))
      (fun r => treeBlocks r ++ pcjson.blocks) :=
    ((transfers_cJsonCreateObject env.toCJsonEnv).frame pcjson.blocks).weaken
  refine (Loses.bind hcreate fun main => ?_).congr fun s =>
    (reaches_cJsonCreateObject env s fun b _ => b = true).symm
  -- nothing takes `pSubJson_main` over, so its blocks are lost if it has any
  refine (Loses.drop ?_ (treeBlocks main)).congr fun s => (treeBlocks_ne_nil main).symm
  cases main with
  | none => exact Transfers.pure (-1, pcjson) fun r => r.2.blocks
  | some main => exact transfers_ledStatusList env led pcjson

/-! ## The CGI handlers -/

theorem loses_ledPwmCgiRootMem (led : ℕ → LedPwmStatus) (req : CgiRequest) :
    Loses [] (ledPwmCgiRootMem env led req) (fun _ => []) fun s =>
      req.method = .get ∧ env.mallocOk s.mallocs = true ∧ env.mallocOk (s.mallocs + 1) = true := by
  refine (Loses.ite (fun _ => Loses.bind (transfers_cJsonCreateObject env.toCJsonEnv).weaken
    fun rspJson => ?_) fun _ => (transfers_answer env 404).weaken).congr fun s =>
      and_congr Iff.rfl (reaches_cJsonCreateObject env s fun b n => b ∧ env.mallocOk n).symm
  cases rspJson with
  | none =>
    exact (Loses.of_transfers (transfers_answer env 500).weaken).congr
      fun s => ⟨fun h => (nomatch h.1), False.elim⟩
  | some rspJson =>
    -- there is memory for the answer: the rest of the handler loses what the list loses
    have hfill := (loses_ledPwmGetAllLedStatusMem env led rspJson).bind_transfers fun r =>
      Transfers.pure r.2 CJsonNode.blocks
    refine (hfill.bind_transfers fun rspJson => transfers_answerFilled env 200 rspJson).congr
      fun s => ⟨And.right, fun h => ⟨rfl, h⟩⟩

theorem transfers_ledPwmCgiLedNumMem (req : CgiRequest) :
    Transfers noFault [] (ledPwmCgiLedNumMem env req) (fun _ => []) :=
  Transfers.ite (fun _ => transfers_answerJson env 200 (transfers_addFields env _)) fun _ =>
    transfers_answer env 404

/-- A request or an answer, and what is made of it. -/
theorem transfers_reply {α : Type} {x : HandlerM Answer} {f : Answer → α}
    {E : Fault → Prop} (hx : Transfers noFault [] x (fun _ => [])) :
    Transfers E [] (x >>= fun r => pure (f r)) (fun _ => []) :=
  hx.weaken.bind fun _ => .pure _ fun _ => []

theorem transfers_ledPostMem (post : PostBody) (i : ℕ) (data : Option (List UInt8)) :
    Transfers notHang [] (ledPostMem env post i data) (fun _ => []) := by
  cases data with
  | none => exact transfers_reply (transfers_answer env 400)
  | some text =>
    refine (transfers_cJsonParse env.toCJsonEnv text).bind fun reqJson => ?_
    cases reqJson with
    | none => exact transfers_reply (transfers_answer env 422)
    | some reqJson =>
      -- the request is deleted on every way out
      refine (transfers_cJsonDelete reqJson).weaken.bind fun _ => ?_
      cases post i reqJson.json with
      | error statusCode => exact transfers_reply (transfers_answer env statusCode)
      | ok r => exact transfers_reply (transfers_answerJson env 201 (transfers_addFields env r.2))

theorem transfers_ledHandlerMem (post : PostBody) (get : GetBody) (led : ℕ → LedPwmStatus)
    (req : CgiRequest) :
    Transfers notHang [] (ledHandlerMem env post get led req) (fun _ => []) := by
  unfold ledHandlerMem
  cases httpdCgiPathStartsWith req.url (ascii "/LED_PWM/") with
  | none => exact Transfers.pure _ fun _ => []
  | some rest =>
    refine Transfers.ite (fun _ => .pure _ fun _ => []) fun _ => Transfers.ite
      (fun _ => transfers_ledPostMem env post _ req.data) fun _ => Transfers.ite (fun _ => ?_)
        fun _ => transfers_reply (transfers_answer env 404)
    exact transfers_reply (transfers_answerJson env 200 (transfers_addFields env _))

/-- One of the members is not there or is no string. -/
def MissesMember (members : List Member) (json : CJson) : Prop :=
  ∃ m ∈ members, ∀ item, json.getObjectItem m.name = some item → item.type ≠ .string

/-- The two tests of the handlers for members. -/
theorem missesMember_iff (members : List Member) (json : CJson) :
    MissesMember members json ↔
      (members.any fun m => (json.getObjectItem m.name).isNone) = true ∨
        (members.any fun m => (json.getObjectItem m.name).any (·.type ≠ .string)) = true := by
  unfold MissesMember
  rw [List.any_eq_true, List.any_eq_true, ← exists_or]
  refine exists_congr fun m => ?_
  rw [← and_or_left]
  refine and_congr_right fun _ => ?_
  cases json.getObjectItem m.name with
  | none => simp
  | some item => simp

theorem blocks_ne_nil (c : CJsonNode) : c.blocks ≠ [] := by
  cases c with
  | node item child => exact List.cons_ne_nil _ _

/-- A tree that is forgotten while a request is refused. -/
theorem loses_refused {α : Type} (c : CJsonNode) (statusCode : ℕ) (f : Answer → α) :
    Loses c.blocks (answer env statusCode >>= fun r => pure (f r)) (fun _ => [])
      (fun _ => True) := by
  have h := Loses.drop (transfers_reply (f := f) (E := noFault) (transfers_answer env statusCode))
    c.blocks
  rw [List.append_nil] at h
  exact h.congr fun _ => iff_of_true trivial (blocks_ne_nil c)

/-- What a `POST` to the network configuration loses. -/
def NetworkPostLeaks (members : List Member) (data : Option (List UInt8)) (s : Heaped ℕ) : Prop :=
  ∃ text, data = some text ∧ Reaches (cJsonParse env.toCJsonEnv text) s fun r _ =>
    ∃ reqJson, r = some reqJson ∧ MissesMember members reqJson.json

theorem loses_networkPostMem (members : List Member) (update : Update) (s : NeonState)
    (data : Option (List UInt8)) :
    Loses [] (networkPostMem env members update s data) (fun _ => [])
      (NetworkPostLeaks env members data) := by
  cases data with
  | none =>
    refine (Loses.of_transfers (transfers_reply (transfers_answer env 400))).congr fun _ =>
      ⟨?_, False.elim⟩
    rintro ⟨text, h, -⟩
    exact nomatch h
  | some text =>
    refine (Loses.bind (transfers_cJsonParse env.toCJsonEnv text) (L := fun r _ =>
      ∃ reqJson, r = some reqJson ∧ MissesMember members reqJson.json) fun reqJson => ?_).congr
        fun _ => ⟨?_, fun h => ⟨text, rfl, h⟩⟩
    · cases reqJson with
      | none =>
        refine (Loses.of_transfers (transfers_reply (transfers_answer env 422))).congr fun _ =>
          ⟨?_, False.elim⟩
        rintro ⟨reqJson, h, -⟩
        exact nomatch h
      | some reqJson =>
        -- both refusals forget the request, and the answer behind them deletes it
        have hL : (∃ json, some reqJson = some json ∧ MissesMember members json.json) ↔
            MissesMember members reqJson.json := by
          constructor
          · rintro ⟨json, h, hmiss⟩
            cases h
            exact hmiss
          · exact fun h => ⟨reqJson, rfl, h⟩
        have hiff := hL.trans (missesMember_iff members reqJson.json)
        by_cases hnone : (members.any fun m => (reqJson.json.getObjectItem m.name).isNone) = true
        · dsimp only
          rw [if_pos hnone]
          exact (loses_refused env reqJson 422 fun r => (r, s)).congr fun _ =>
            iff_of_true (hiff.mpr (Or.inl hnone)) trivial
        by_cases htype :
            (members.any fun m => (reqJson.json.getObjectItem m.name).any (·.type ≠ .string)) = true
        · dsimp only
          rw [if_neg hnone, if_pos htype]
          exact (loses_refused env reqJson 422 fun r => (r, s)).congr fun _ =>
            iff_of_true (hiff.mpr (Or.inr htype)) trivial
        · dsimp only
          rw [if_neg hnone, if_neg htype]
          refine (Loses.of_transfers ((transfers_cJsonDelete reqJson).weaken.bind fun _ =>
            transfers_reply (transfers_answerJson env 201 (transfers_addFields env _)))).congr
              fun _ => iff_of_false (fun h => ?_) id
          exact (hiff.mp h).elim hnone htype
    · rintro ⟨text', h, hreach⟩
      cases h
      exact hreach

theorem loses_networkHandlerMem (members : List Member) (update : Update) (s : NeonState)
    (req : CgiRequest) :
    Loses [] (networkHandlerMem env members update s req) (fun _ => []) fun st =>
      req.method = .post ∧ NetworkPostLeaks env members req.data st := by
  refine Loses.ite (fun _ => loses_networkPostMem env members update s req.data) fun _ => ?_
  exact Transfers.ite (fun _ => transfers_reply (transfers_answerJson env 200
    (transfers_addFields env _))) fun _ => transfers_reply (transfers_answer env 404)

/-! ## Messages -/

theorem transfers_reportHead : Transfers noFault [] (reportHead env) treeBlocks := by
  refine (transfers_cJsonCreateObject env.toCJsonEnv).bind fun brocastJson => ?_
  cases brocastJson with
  | none => exact Transfers.pure none treeBlocks
  | some brocastJson =>
    exact (transfers_addFields env _ brocastJson).bind fun c => Transfers.pure (some c) treeBlocks

/-- The report gets as far as the list of all LEDs, and there is memory for `pSubJson_main`. -/
def ReportLeaks (s : Heaped ℕ) : Prop :=
  Reaches (reportHead env) s fun r s' => r.isSome ∧ env.mallocOk s'.mallocs = true

theorem loses_ledPwmDoReportMem (led : ℕ → LedPwmStatus) (viaWebsocket : Bool) :
    Loses [] (ledPwmDoReportMem env led viaWebsocket) (fun _ => []) (ReportLeaks env) := by
  refine Loses.bind (transfers_reportHead env).weaken fun brocastJson => ?_
  cases brocastJson with
  | none =>
    exact (Loses.of_transfers (.pure (-1) fun _ => [])).congr
      fun s => ⟨fun h => (nomatch h.1), False.elim⟩
  | some brocastJson =>
    refine ((loses_ledPwmGetAllLedStatusMem env led brocastJson).bind_transfers fun r => ?_).congr
      fun s => ⟨And.right, fun h => ⟨rfl, h⟩⟩
    -- with or without a WebSocket the report is deleted
    have hdelete : Transfers noFault r.2.blocks
        (cJsonDelete r.2 >>= fun _ => pure (-1) : HandlerM ℤ) (fun _ => []) :=
      (transfers_cJsonDelete r.2).bind fun _ => .pure _ fun _ => []
    refine Transfers.ite (fun _ => ?_) fun _ => hdelete
    exact (transfers_sendJsonMem env (transfers_sendFrames env _) r.2 false).bind_frame
      (r := r.2.blocks) fun _ => hdelete

/-- What the callback for a `POST` loses. -/
def PostMessageLeaks (registered : Bool) (topic : List UInt8) (json : CJson) (s : Heaped ℕ) :
    Prop :=
  topicMatches registered topic = true ∧ 0 ≤ (processLedPwmAppJsonPostCommands json).1 ∧
    ReportLeaks env s

theorem loses_processWebSocketPostMessageMem (registered : Bool) (led : ℕ → LedPwmStatus)
    (topic : List UInt8) (json : CJson) :
    Loses [] (processWebSocketPostMessageMem env registered led topic json) (fun _ => [])
      (PostMessageLeaks env registered topic json) :=
  Loses.ite (fun _ => Loses.ite (fun _ => loses_ledPwmDoReportMem env led true) fun _ =>
    .pure _ fun _ => []) fun _ => .pure _ fun _ => []

/-- What the callback for a `GET` loses. -/
def GetMessageLeaks (registered : Bool) (topic : List UInt8) (json : CJson) (mallocs : ℕ) : Prop :=
  topicMatches registered topic = true ∧ getCommand json = .all ∧ env.mallocOk mallocs = true

theorem transfers_individualStatusMem (led : ℕ → LedPwmStatus) (json : CJson)
    (rspJson : CJsonNode) :
    Transfers notHang rspJson.blocks (individualStatusMem env led json rspJson)
      (fun r => r.2.blocks) := by
  unfold individualStatusMem
  cases json.getObjectItem (ascii "led_index") with
  | none => exact Transfers.pure (0, rspJson) fun r => r.2.blocks
  | some item =>
    refine Transfers.ite (fun _ => ?_) fun _ => Transfers.pure (0, rspJson) fun r => r.2.blocks
    have hread : Stops (if 0 ≤ item.valueint then .ok item.valueint.toNat else .error .read) :=
      Stops.ite (Stops.ok _) Stops.read
    refine (Transfers.lift hread rspJson.blocks).bind fun i => ?_
    exact (transfers_addFields env _ rspJson).weaken.bind fun c =>
      Transfers.pure ((0, c) : ℤ × CJsonNode) fun r => r.2.blocks

theorem loses_getCommandsMem (led : ℕ → LedPwmStatus) (json : CJson) (rspJson : CJsonNode) :
    Loses rspJson.blocks (processLedPwmAppJsonGetCommandsMem env led json rspJson)
      (fun r => r.2.blocks) (fun s => getCommand json = .all ∧ env.mallocOk s.mallocs = true) := by
  -- a command other than `all` loses nothing
  have hkept : ∀ {c : GetCommand} {x : HandlerM (ℤ × CJsonNode)}, c ≠ .all →
      Transfers notHang rspJson.blocks x (fun r => r.2.blocks) →
        Loses rspJson.blocks x (fun r => r.2.blocks)
          (fun s => c = .all ∧ env.mallocOk s.mallocs = true) :=
    fun hne hx => (Loses.of_transfers hx).congr fun s => ⟨fun h => hne h.1, False.elim⟩
  unfold processLedPwmAppJsonGetCommandsMem
  cases getCommand json with
  | num =>
    exact hkept (by decide) ((transfers_addFields env _ rspJson).weaken.bind
      fun c => Transfers.pure ((0, c) : ℤ × CJsonNode) fun r => r.2.blocks)
  | individual =>
    exact hkept (by decide) ((transfers_addFields env _ rspJson).weaken.bind
      fun c => transfers_individualStatusMem env led json c)
  | other =>
    exact hkept (by decide) (Transfers.pure ((0, rspJson) : ℤ × CJsonNode)
      fun r => r.2.blocks)
  | all =>
    refine ((loses_ledPwmGetAllLedStatusMem env led rspJson).bind_transfers fun r => ?_).congr
      fun s => ⟨And.right, fun h => ⟨rfl, h⟩⟩
    exact (transfers_addFields env _ r.2).bind fun c =>
      Transfers.pure ((r.1, c) : ℤ × CJsonNode) fun r => r.2.blocks

theorem transfers_sendGetRsp (topic : List UInt8) (r : ℤ × CJsonNode) :
    Transfers noFault r.2.blocks (sendGetRsp env topic r) (fun _ => []) := by
  refine Transfers.ite (fun _ => ?_) fun _ => transfers_cJsonDelete r.2
  exact (transfers_addFields env _ r.2).bind fun c =>
    transfers_sendJsonMem env (transfers_sendFrames env _) c true

/-- The `GET` branch loses the message if there is no memory for an answer, and what its callback
loses if there is. -/
theorem loses_serveGetMem (registered : Bool) (led : ℕ → LedPwmStatus) (topic : List UInt8)
    (msgJson : CJsonNode) (rspJson : Option CJsonNode) :
    Loses (treeBlocks rspJson ++ msgJson.blocks)
      (serveGetMem env registered led topic msgJson rspJson) (fun _ => []) fun s =>
        rspJson.isSome = true →
          GetMessageLeaks env registered topic msgJson.json s.mallocs := by
  cases rspJson with
  | none =>
    refine (Loses.forget msgJson.blocks ()).congr fun s => iff_of_true nofun (blocks_ne_nil msgJson)
  | some rspJson =>
    -- the message is carried along as a frame and deleted at the end
    have hget : Loses rspJson.blocks (getMessageMem env registered led topic msgJson.json rspJson)
        (fun r => r.2.blocks)
        (fun s => GetMessageLeaks env registered topic msgJson.json s.mallocs) :=
      Loses.ite (fun _ => loses_getCommandsMem env led msgJson.json rspJson) fun _ =>
        Transfers.pure ((-1, rspJson) : ℤ × CJsonNode) fun r => r.2.blocks
    refine ((hget.frame msgJson.blocks).bind_transfers fun r => ?_).congr fun s =>
      ⟨fun h => h rfl, fun h _ => h⟩
    exact (transfers_sendGetRsp env topic r).bind_frame fun _ => transfers_cJsonDelete msgJson

/-- What `Process_Websocket_Incomming_Message` loses of a message that it has parsed. -/
def MessageLeaks (registered : Bool) (json : CJson) (s : Heaped ℕ) : Prop :=
  ∃ topic, stringItem json (ascii "topic") = some topic ∧
    ((stringItem json (ascii "method") = some (ascii "POST") ∧
        PostMessageLeaks env registered topic json s) ∨
      (stringItem json (ascii "method") = some (ascii "GET") ∧
        (env.mallocOk s.mallocs = true →
          GetMessageLeaks env registered topic json (s.mallocs + 1))))

theorem loses_serveMessageMem (registered : Bool) (led : ℕ → LedPwmStatus) (msgJson : CJsonNode) :
    Loses msgJson.blocks (serveMessageMem env registered led msgJson) (fun _ => [])
      (MessageLeaks env registered msgJson.json) := by
  have hdelete : Transfers noFault msgJson.blocks (cJsonDelete msgJson : HandlerM Unit)
      (fun _ => []) := transfers_cJsonDelete msgJson
  unfold serveMessageMem MessageLeaks
  rcases stringItem msgJson.json (ascii "method") with _ | method
  · refine (Loses.of_transfers hdelete.weaken).congr fun s => iff_of_false ?_ id
    rintro ⟨topic, -, ⟨h, -⟩ | ⟨h, -⟩⟩
    · exact nomatch h
    · exact nomatch h
  -- a message without a topic is deleted as it is
  rcases stringItem msgJson.json (ascii "topic") with _ | topic
  · refine (Loses.of_transfers hdelete.weaken).congr fun s => iff_of_false ?_ id
    rintro ⟨topic, h, -⟩
    exact nomatch h
  have hne : ascii "POST" ≠ ascii "GET" := by decide
  dsimp only
  by_cases hpost : method = ascii "POST"
  · subst hpost
    rw [if_pos rfl]
    have hpostMessage := ((loses_processWebSocketPostMessageMem env registered led topic
      msgJson.json).frame msgJson.blocks).bind_transfers fun _ => hdelete
    refine hpostMessage.congr fun s => ⟨?_, fun h => ⟨topic, rfl, Or.inl ⟨rfl, h⟩⟩⟩
    rintro ⟨topic', htopic, ⟨-, h⟩ | ⟨hget, -⟩⟩
    · cases htopic
      exact h
    · exact absurd (Option.some.inj hget) hne
  rw [if_neg hpost]
  by_cases hget : method = ascii "GET"
  · subst hget
    rw [if_pos rfl]
    have hcreate : Transfers notHang msgJson.blocks
        (cJsonCreateObject env.toCJsonEnv : HandlerM (Option CJsonNode))
        (fun r => treeBlocks r ++ msgJson.blocks) :=
      ((transfers_cJsonCreateObject env.toCJsonEnv).frame msgJson.blocks).weaken
    refine (Loses.bind hcreate fun rspJson =>
      loses_serveGetMem env registered led topic msgJson rspJson).congr fun s => ?_
    refine Iff.trans ?_ (reaches_cJsonCreateObject env s fun b n =>
      b = true → GetMessageLeaks env registered topic msgJson.json n).symm
    constructor
    · rintro ⟨topic', htopic, ⟨h, -⟩ | ⟨-, h⟩⟩
      · exact absurd (Option.some.inj h).symm hne
      · cases htopic
        exact h
    · exact fun h => ⟨topic, rfl, Or.inr ⟨rfl, h⟩⟩
  · rw [if_neg hget]
    refine (Loses.of_transfers hdelete.weaken).congr fun s => iff_of_false ?_ id
    rintro ⟨topic', -, ⟨h, -⟩ | ⟨h, -⟩⟩
    · exact hpost (Option.some.inj h)
    · exact hget (Option.some.inj h)

/-- What `Process_Websocket_Incomming_Message` loses. -/
def IncommingMessageLeaks (registered : Bool) (payloadLength : ℕ) (msg : Option (List UInt8))
    (s : Heaped ℕ) : Prop :=
  payloadLength ≠ 0 ∧ ∃ text, msg = some text ∧
    Reaches (cJsonParse env.toCJsonEnv text) s fun r s' =>
      ∃ msgJson, r = some msgJson ∧ MessageLeaks env registered msgJson.json s'

theorem loses_processWebsocketIncommingMessageMem (registered : Bool) (led : ℕ → LedPwmStatus)
    (payloadLength : ℕ) (msg : Option (List UInt8)) :
    Loses [] (processWebsocketIncommingMessageMem env registered led payloadLength msg)
      (fun _ => []) (IncommingMessageLeaks env registered payloadLength msg) := by
  cases msg with
  | none =>
    refine (Loses.of_transfers (.pure () fun _ => [])).congr fun s => iff_of_false ?_ id
    rintro ⟨-, text, h, -⟩
    exact nomatch h
  | some text =>
    unfold processWebsocketIncommingMessageMem
    dsimp only
    by_cases hlen : payloadLength = 0
    · rw [if_pos hlen]
      exact (Loses.of_transfers (.pure () fun _ => [])).congr fun s =>
        iff_of_false (fun h => h.1 hlen) id
    rw [if_neg hlen]
    refine (Loses.bind (transfers_cJsonParse env.toCJsonEnv text) (L := fun r s' =>
      ∃ msgJson, r = some msgJson ∧ MessageLeaks env registered msgJson.json s')
        fun msgJson => ?_).congr fun s => ⟨?_, fun h => ⟨hlen, text, rfl, h⟩⟩
    · cases msgJson with
      | none =>
        refine (Loses.of_transfers (.pure () fun _ => [])).congr fun s => iff_of_false ?_ id
        rintro ⟨msgJson, h, -⟩
        exact nomatch h
      | some msgJson =>
        refine (loses_serveMessageMem env registered led msgJson).congr fun s =>
          ⟨?_, fun h => ⟨msgJson, rfl, h⟩⟩
        rintro ⟨msgJson', h, hleaks⟩
        cases h
        exact hleaks
    · rintro ⟨-, text', h, hreach⟩
      cases h
      exact hreach

end

/-! ## The answers are those of the models without a heap -/

def answerOf : CgiReply → Answer
  | .notFound => none
  | .response statusCode => some statusCode
  | .json statusCode _ => some statusCode

section

variable (env : HandlerEnv)

theorem yields_answer (statusCode : ℕ) :
    Yields (answer env statusCode) fun r => r = some statusCode :=
  Yields.seq fun _ => Yields.pure rfl

theorem yields_answerJson (statusCode : ℕ) (fill : CJsonNode → HandlerM CJsonNode) :
    Yields (answerJson env statusCode fill) fun r => r = some 500 ∨ r = some statusCode := by
  refine Yields.seq fun rspJson => ?_
  cases rspJson with
  | none => exact (yields_answer env 500).imp fun r => Or.inl
  | some rspJson => exact Yields.seq fun _ => Yields.seq fun _ => Yields.pure (Or.inr rfl)

/-- A handler for an LED answers and calls what it does in `Led.App`, for some outcome of the
parser and of the allocation of the answer. -/
theorem yields_ledHandlerMem (post : PostBody) (get : GetBody) (led : ℕ → LedPwmStatus)
    (req : CgiRequest) :
    Yields (ledHandlerMem env post get led req) fun r => ∃ parse memOk,
      r = (answerOf (ledHandler post get parse memOk led req).1,
        (ledHandler post get parse memOk led req).2) := by
  unfold ledHandlerMem ledHandler
  cases httpdCgiPathStartsWith req.url (ascii "/LED_PWM/") with
  | none => exact Yields.pure ⟨fun _ => none, true, rfl⟩
  | some rest =>
    dsimp only
    refine Yields.ite (fun hi => Yields.pure ⟨fun _ => none, true, ?_⟩) fun hi => ?_
    · rw [if_pos hi]
      rfl
    simp only [if_neg hi]
    refine Yields.ite (fun hpost => ?_) fun hpost => Yields.ite (fun hget => ?_) fun hget => ?_
    · simp only [if_pos hpost]
      unfold ledPostMem ledPost
      cases req.data with
      | none =>
        refine (yields_answer env 400).bind fun r hr => Yields.pure ⟨fun _ => none, true, ?_⟩
        rw [hr]
        rfl
      | some text =>
        refine Yields.seq fun reqJson => ?_
        cases reqJson with
        | none =>
          refine (yields_answer env 422).bind fun r hr => Yields.pure ⟨fun _ => none, true, ?_⟩
          rw [hr]
          rfl
        | some reqJson =>
          refine Yields.seq fun _ => ?_
          cases hpost : post (httpdCgiParseUint rest) reqJson.json with
          | error statusCode =>
            refine (yields_answer env statusCode).bind fun r hr =>
              Yields.pure ⟨fun _ => some reqJson.json, true, ?_⟩
            dsimp only
            rw [hpost, hr]
            rfl
          | ok calls =>
            refine (yields_answerJson env 201 _).bind fun r hr =>
              Yields.pure ⟨fun _ => some reqJson.json, r = some 201, ?_⟩
            dsimp only
            rw [hpost]
            rcases hr with rfl | rfl
            · rfl
            · rfl
    · simp only [if_neg hpost, if_pos hget]
      refine (yields_answerJson env 200 _).bind fun r hr =>
        Yields.pure ⟨fun _ => none, r = some 200, ?_⟩
      rcases hr with rfl | rfl
      · rfl
      · rfl
    · simp only [if_neg hpost, if_neg hget]
      refine (yields_answer env 404).bind fun r hr => Yields.pure ⟨fun _ => none, true, ?_⟩
      rw [hr]
      rfl

/-- A handler for the network answers and sets what it does in `Net.Network`. -/
theorem yields_networkHandlerMem (members : List Member) (update : Update) (s : NeonState)
    (req : CgiRequest) :
    Yields (networkHandlerMem env members update s req) fun r => ∃ parse memOk,
      r = (answerOf (networkHandler members update parse memOk s req).1,
        (networkHandler members update parse memOk s req).2) := by
  unfold networkHandlerMem networkHandler
  refine Yields.ite (fun hpost => ?_) fun hpost => Yields.ite (fun hget => ?_) fun hget => ?_
  · simp only [if_pos hpost]
    unfold networkPostMem networkPost
    cases req.data with
    | none =>
      refine (yields_answer env 400).bind fun r hr => Yields.pure ⟨fun _ => none, true, ?_⟩
      rw [hr]
      rfl
    | some text =>
      refine Yields.seq fun reqJson => ?_
      cases reqJson with
      | none =>
        refine (yields_answer env 422).bind fun r hr => Yields.pure ⟨fun _ => none, true, ?_⟩
        rw [hr]
        rfl
      | some reqJson =>
        dsimp only
        refine Yields.ite (fun hnone => ?_) fun hnone => Yields.ite (fun htype => ?_)
          fun htype => ?_
        · refine (yields_answer env 422).bind fun r hr =>
            Yields.pure ⟨fun _ => some reqJson.json, true, ?_⟩
          dsimp only
          rw [hr, if_pos hnone]
          rfl
        · refine (yields_answer env 422).bind fun r hr =>
            Yields.pure ⟨fun _ => some reqJson.json, true, ?_⟩
          dsimp only
          rw [hr, if_neg hnone, if_pos htype]
          rfl
        · refine Yields.seq fun _ => (yields_answerJson env 201 _).bind fun r hr =>
            Yields.pure ⟨fun _ => some reqJson.json, r = some 201, ?_⟩
          dsimp only
          rw [if_neg hnone, if_neg htype]
          rcases hr with rfl | rfl
          · rfl
          · rfl
  · simp only [if_neg hpost, if_pos hget]
    refine (yields_answerJson env 200 _).bind fun r hr =>
      Yields.pure ⟨fun _ => none, r = some 200, ?_⟩
    rcases hr with rfl | rfl
    · rfl
    · rfl
  · simp only [if_neg hpost, if_neg hget]
    refine (yields_answer env 404).bind fun r hr => Yields.pure ⟨fun _ => none, true, ?_⟩
    rw [hr]
    rfl

end

/-! ## All handlers -/

inductive CgiHandler
  | ledRoot
  | ledNum
  | led (r : LedRoute)
  | network (r : NetworkResource)
deriving DecidableEq, Repr

def CgiHandler.run (env : HandlerEnv) (led : ℕ → LedPwmStatus) (net : NeonState)
    (req : CgiRequest) : CgiHandler → HandlerM Answer
  | .ledRoot => ledPwmCgiRootMem env led req
  | .ledNum => ledPwmCgiLedNumMem env req
  | .led r => ledHandlerMem env (postBody r) (getBody r) led req >>= fun a => pure a.1
  | .network r => networkHandlerMem env r.members r.update net req >>= fun a => pure a.1

/-- A call of a handler: what it gets, and what its own calls come to. -/
inductive HandlerCall
  | cgi (h : CgiHandler) (env : HandlerEnv) (led : ℕ → LedPwmStatus) (net : NeonState)
    (req : CgiRequest)
  | doReport (env : HandlerEnv) (led : ℕ → LedPwmStatus) (viaWebsocket : Bool)
  | incommingMessage (env : HandlerEnv) (registered : Bool) (led : ℕ → LedPwmStatus)
    (payloadLength : ℕ) (msg : Option (List UInt8))
  | sendWebFile (io : Io) (s : HttpState)
  | redirect (io : Io) (s : HttpState) (newUrl : Option (List UInt8))
  | notFound (io : Io) (s : HttpState)

/-- The call ends, and if it stays within its memory the same blocks are live as before: what it
has allocated has been freed once, and nothing else has. -/
def HandlerCall.KeepsBlocks (l : Ledger) (others : List ℕ) : HandlerCall → Prop
  | .cgi h env led net req =>
    Finishes notHang (exec (h.run env led net req) ⟨0, l, 0⟩) fun _ s' => Balanced s'.ledger others
  | .doReport env led viaWebsocket =>
    Finishes notHang (exec (ledPwmDoReportMem env led viaWebsocket) ⟨0, l, 0⟩) fun _ s' =>
      Balanced s'.ledger others
  | .incommingMessage env registered led payloadLength msg =>
    Finishes notHang
      (exec (processWebsocketIncommingMessageMem env registered led payloadLength msg) ⟨0, l, 0⟩)
      fun _ s' => Balanced s'.ledger others
  | .sendWebFile io s =>
    Finishes notHang (exec (httpdSendWebFileMem io) ⟨s, l, 0⟩) fun _ s' => Balanced s'.ledger others
  | .redirect io s newUrl =>
    Finishes notHang (exec (httpdSendPageMem io redirectPage newUrl) ⟨s, l, 0⟩) fun _ s' =>
      Balanced s'.ledger others
  | .notFound io s =>
    Finishes notHang (exec (httpdSendPageMem io notFoundPage none) ⟨s, l, 0⟩) fun _ s' =>
      Balanced s'.ledger others

/-- The image is searched for a file without an end. -/
def HandlerCall.Hangs : HandlerCall → Prop
  | .sendWebFile io s => WebFileHangs io s
  | .redirect io s _ => OpenHangs io s redirectPage.fileName
  | .notFound io s => OpenHangs io s notFoundPage.fileName
  | _ => False

/-- The branches in which something is forgotten: `pSubJson_main` of the list of all LEDs, the
request that the network configuration refuses, the message that there is no memory to answer, and
the page that a client does not accept and cannot be told about. -/
def HandlerCall.Leaks (l : Ledger) : HandlerCall → Prop
  | .cgi .ledRoot env _ _ req =>
    req.method = .get ∧ env.mallocOk 0 = true ∧ env.mallocOk 1 = true
  | .cgi .ledNum _ _ _ _ => False
  | .cgi (.led _) _ _ _ _ => False
  | .cgi (.network r) env _ _ req =>
    req.method = .post ∧ NetworkPostLeaks env r.members req.data ⟨0, l, 0⟩
  | .doReport env _ _ => ReportLeaks env ⟨0, l, 0⟩
  | .incommingMessage env registered _ payloadLength msg =>
    IncommingMessageLeaks env registered payloadLength msg ⟨0, l, 0⟩
  | .sendWebFile _ _ => False
  | .redirect io s _ => PageLeaks io redirectPage s
  | .notFound io s => PageLeaks io notFoundPage s

/-- A handler ends with the blocks that were live before if and only if it comes to an end and
takes none of the branches in which something is forgotten. -/
theorem HandlerCall.keepsBlocks_iff (c : HandlerCall) {l : Ledger} {others : List ℕ}
    (hbal : Balanced l others) : c.KeepsBlocks l others ↔ ¬ c.Hangs ∧ ¬ c.Leaks l := by
  have hends : ∀ P : Prop, ¬ P ↔ ¬ False ∧ ¬ P := fun P => (and_iff_right not_false).symm
  cases c with
  | cgi h env led net req =>
    cases h with
    | ledRoot => exact ((loses_ledPwmCgiRootMem env led req).balanced_iff hbal).trans (hends _)
    | ledNum =>
      exact ((Loses.of_transfers (transfers_ledPwmCgiLedNumMem env req).weaken).balanced_iff
        hbal).trans (hends _)
    | led r =>
      have hled := (transfers_ledHandlerMem env (postBody r) (getBody r) led req).bind fun a =>
        Transfers.pure a.1 fun _ => []
      exact ((Loses.of_transfers hled).balanced_iff hbal).trans (hends _)
    | network r =>
      have hnet := (loses_networkHandlerMem env r.members r.update net req).bind_transfers fun a =>
        Transfers.pure a.1 fun _ => []
      exact (hnet.balanced_iff hbal).trans (hends _)
  | doReport env led viaWebsocket =>
    exact ((loses_ledPwmDoReportMem env led viaWebsocket).balanced_iff hbal).trans (hends _)
  | incommingMessage env registered led payloadLength msg =>
    exact ((loses_processWebsocketIncommingMessageMem env registered led payloadLength
      msg).balanced_iff hbal).trans (hends _)
  | sendWebFile io s =>
    exact (httpdSendWebFileMem_iff io hbal).trans (and_iff_left not_false).symm
  | redirect io s newUrl => exact httpdSendPageMem_iff io redirectPage newUrl hbal
  | notFound io s => exact httpdSendPageMem_iff io notFoundPage none hbal

/-- Everything succeeds. -/
def HandlerEnv.ideal : HandlerEnv where
  mallocOk _ := true
  numberInt _ := 0
  sendOk _ := true
  clients := 0
  srcOpen := true

/-- A `GET` of an LED loses nothing. -/
theorem keepsBlocks_getLed :
    (HandlerCall.cgi (.led .any) .ideal (fun _ => .zero) (neonTcpipInit false 1500 ⟨0, 0, 0⟩)
      ⟨some (ascii "/LED_PWM/1"), .get, none⟩).KeepsBlocks Ledger.empty [] :=
  (HandlerCall.keepsBlocks_iff _ balanced_empty).mpr ⟨id, id⟩

/-- A `GET` of all LEDs loses a block each time it succeeds. -/
theorem not_keepsBlocks_getRoot :
    ¬ (HandlerCall.cgi .ledRoot .ideal (fun _ => .zero) (neonTcpipInit false 1500 ⟨0, 0, 0⟩)
      ⟨some (ascii "/LED_PWM"), .get, none⟩).KeepsBlocks Ledger.empty [] :=
  (loses_ledPwmCgiRootMem .ideal (fun _ => .zero) _).not_finishes balanced_empty ⟨rfl, rfl, rfl⟩

end WLink.App
