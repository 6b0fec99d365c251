import WLink.Httpd.Dispatch
import WLink.Httpd.ResponseTheorems

/-!
# One request, one response

A request whose URL has a callback runs it exactly once, and exactly one status line is sent
for a request as long as the callback plays its part (`dispatch_answers`). Passed over are
requests without the body that their method calls for; a WebSocket handshake is answered
without a callback.

`exec_processRequest_matched` and its siblings say what each method does, `exec_dispatch` what
is made of it.
-/

namespace WLink.Httpd

open WLink.Lib CString NeonRtFs Exec

/-! ## Counting -/

/-- The heads among the events. -/
def heads (evs : List HttpEvent) : List Head :=
  evs.filterMap fun
    | .head h _ => some h
    | _ => none

/-- The callbacks among the events. -/
def calls (evs : List HttpEvent) : List ℕ :=
  evs.filterMap fun
    | .call cgi => some cgi
    | _ => none

@[simp] theorem heads_append (as bs : List HttpEvent) : heads (as ++ bs) = heads as ++ heads bs :=
  List.filterMap_append

@[simp] theorem calls_append (as bs : List HttpEvent) : calls (as ++ bs) = calls as ++ calls bs :=
  List.filterMap_append

@[simp] theorem heads_call (cgi : ℕ) (evs : List HttpEvent) :
    heads (.call cgi :: evs) = heads evs := rfl

@[simp] theorem calls_call (cgi : ℕ) (evs : List HttpEvent) :
    calls (.call cgi :: evs) = cgi :: calls evs := rfl

theorem heads_map_sent (chunks : List (List UInt8)) : heads (chunks.map sent) = [] := by
  unfold heads
  rw [List.filterMap_map, List.filterMap_eq_nil_iff]
  exact fun _ _ => rfl

theorem calls_map_sent (chunks : List (List UInt8)) : calls (chunks.map sent) = [] := by
  unfold calls
  rw [List.filterMap_map, List.filterMap_eq_nil_iff]
  exact fun _ _ => rfl

theorem heads_fileEvents (sendLen : ℕ → ℕ) (h : Head) (buf content : List UInt8) :
    heads (fileEvents sendLen h buf content) = [h] := congrArg (h :: ·) (heads_map_sent _)

theorem calls_fileEvents (sendLen : ℕ → ℕ) (h : Head) (buf content : List UInt8) :
    calls (fileEvents sendLen h buf content) = [] := calls_map_sent _

/-- The computation returns and does nothing but send. -/
structure Callback (x : Http ℤ) : Prop where
  sends : ∀ s, ∃ r evs, exec x s = (.ok r, s.push evs) ∧ calls evs = []

/-- The computation sends exactly one head, or it finds nothing and sends none. -/
def OneHead (x : Http ℤ) : Prop :=
  ∀ s r evs, exec x s = (.ok r, s.push evs) →
    (heads evs).length = if r = httpdCgiNotfound then 0 else 1

theorem HttpState.push_inj {s : HttpState} {evs evs' : List HttpEvent}
    (h : s.push evs = s.push evs') : evs = evs' :=
  List.append_cancel_left (congrArg HttpState.events h)

/-! ## Answers of the server -/

section

variable {io : Io} (hio : io.Good)
include hio

/-- `HTTPd_Send_CGI_Response` sends one head. -/
theorem exec_httpdSendCgiResponse {statusCode : ℕ} (hstatus : statusCode < 2 ^ 32)
    (rspType rspData : List UInt8) (s : HttpState) :
    ∃ h body, exec (httpdSendCgiResponse io statusCode rspType rspData) s =
      (.ok httpdCgiDone, s.push (.head h h.render.length :: body)) ∧
        heads body = [] ∧ calls body = [] := by
  obtain ⟨block, hblock, -⟩ := exec_memMalloc hio s httpdCmdBufSize
  obtain ⟨h, hh⟩ : ∃ h, h = cgiHead s.conn.connetionMode statusCode rspType := ⟨_, rfl⟩
  have hfit : h.render.length < httpdCmdBufSize := by
    have hrender := Head.length_render_le h (by rw [hh]; exact hstatus)
    have htype := length_mimeOf_le rspType
    have hconn : fieldsLength (connectionFields s.conn.connetionMode) ≤ 54 := by
      cases s.conn.connetionMode <;> decide
    have hserver : fieldsLength [httpServerField] = 30 := by decide
    have htypeName : httpContentType.length = 12 := by decide
    have hallow : fieldsLength [(ascii "Access-Control-Allow-Origin", ascii "*")] = 32 := by
      decide +kernel
    have hfields : fieldsLength h.fields =
        fieldsLength ([httpServerField] ++ connectionFields s.conn.connetionMode ++
          ([(httpContentType, mimeOf rspType)] ++
            [(ascii "Access-Control-Allow-Origin", ascii "*")])) := by
      rw [hh]
      rfl
    -- the fields are at most as long as those of the longest content type
    simp only [fieldsLength_append, hserver, hallow, fieldsLength_cons, fieldsLength_nil,
      htypeName] at hfields
    unfold httpdCmdBufSize
    omega
  have hwrite : exec (writeHead httpdCmdBufSize h) s = (.ok (), s) := by
    unfold writeHead
    rw [if_pos hfit]
    rfl
  unfold httpdSendCgiResponse
  rw [exec_bind_ok hblock]
  dsimp only
  rw [exec_bind_ok (exec_view (·.conn) s), ← hh, exec_bind_ok hwrite,
    exec_bind_ok (exec_sendHead hio s h), exec_ite, if_neg (by omega), exec_ite]
  split
  · rw [exec_bind_ok (exec_sendBody hio _ rspData)]
    exact ⟨h, [sent rspData], by rw [HttpState.push_push]; rfl, rfl, rfl⟩
  · exact ⟨h, [], rfl, rfl, rfl⟩

/-- An answer by `HTTPd_Send_CGI_Response` is what is asked of a callback. -/
theorem callback_httpdSendCgiResponse {statusCode : ℕ} (hstatus : statusCode < 2 ^ 32)
    (rspType rspData : List UInt8) :
    Callback (httpdSendCgiResponse io statusCode rspType rspData) ∧
      OneHead (httpdSendCgiResponse io statusCode rspType rspData) := by
  refine ⟨⟨fun s => ?_⟩, fun s r evs hexec => ?_⟩
  · obtain ⟨h, body, hexec, -, hcalls⟩ := exec_httpdSendCgiResponse hio hstatus rspType rspData s
    exact ⟨_, _, hexec, hcalls⟩
  · obtain ⟨h, body, hexec', hheads, -⟩ := exec_httpdSendCgiResponse hio hstatus rspType rspData s
    rw [hexec'] at hexec
    obtain ⟨hr, hs⟩ := Prod.mk.inj hexec
    cases hr
    rw [← HttpState.push_inj hs]
    show (h :: heads body).length = _
    rw [hheads]
    rfl

variable {files : List FsEntry} {s : HttpState} (hs : Serves s files) {ae : List UInt8}
  (hae : StrAt s.conn.acceptEncoding 0 ae)
include hs hae

/-- `HTTPd_NotFound` always sends one head. -/
theorem exec_httpdNotFound :
    ∃ evs, exec (httpdNotFound io) s = (.ok httpdCgiDone, s.push evs) ∧
      (heads evs).length = 1 ∧ calls evs = [] := by
  by_cases hrefused : pageIsGzip files notFoundPage = true ∧ acceptsGzip ae = false
  · exact ⟨_, exec_httpdSendPage_refused hio hs hae hrefused.1 hrefused.2, rfl, rfl⟩
  · have haccepted : pageIsGzip files notFoundPage = true → acceptsGzip ae = true := by
      simpa using hrefused
    have hfit : (pageHead files s.conn.connetionMode notFoundPage none).render.length <
        httpdCmdBufSize := by
      unfold pageHead
      cases selected files notFoundPage.fileName with
      | none => exact fileHead_fits _ (by decide) (by decide) (by decide) _
      | some e =>
        have := e.lenDecomp_lt
        exact fileHead_fits _ (by decide) (by decide) (by omega) _
    obtain ⟨buf, -, hexec⟩ := exec_httpdSendPage hio hs notFoundPage_html hae haccepted hfit
    refine ⟨_, hexec, ?_⟩
    cases selected files notFoundPage.fileName with
    | none => exact ⟨rfl, rfl⟩
    | some e => exact ⟨by rw [heads_fileEvents]; rfl, calls_fileEvents _ _ _ _⟩

end

/-! ## The callback for a URL -/

/-- The callback that the tables have for a URL: a registered one before a built-in one. -/
def matchCgi (urls : UrlTables) (url : List UInt8) : Option ℕ :=
  ((urls.registeredUrlList.find? (·.isMatch url)).map (·.cgiCb)).or
    ((urls.builtInUrls.find? (·.isMatch url)).map (·.cgiCb))

/-- The state with another `cgi` in its connection. -/
def HttpState.setCgi (s : HttpState) (cgi : Option ℕ) : HttpState :=
  { s with conn := { s.conn with cgi := cgi } }

section

variable (s : HttpState) (cgi : Option ℕ)

@[simp] theorem HttpState.setCgi_cgi : (s.setCgi cgi).conn.cgi = cgi := rfl

@[simp] theorem HttpState.setCgi_events : (s.setCgi cgi).events = s.events := rfl

@[simp] theorem HttpState.setCgi_setCgi (cgi' : Option ℕ) :
    (s.setCgi cgi).setCgi cgi' = s.setCgi cgi' := rfl

theorem HttpState.setCgi_push (evs : List HttpEvent) :
    (s.push evs).setCgi cgi = (s.setCgi cgi).push evs := rfl

theorem HttpState.setCgi_self (h : s.conn.cgi = cgi) : s.setCgi cgi = s := by
  subst h
  rfl

theorem Serves.setCgi {files : List FsEntry} (h : Serves s files) : Serves (s.setCgi cgi) files :=
  ⟨h.img, h.initDone⟩

theorem exec_clearCgi : exec clearCgi s = (.ok (), s.setCgi none) := rfl

end

theorem exec_searchUrls (table : List UrlItem) (url : List UInt8) (s : HttpState) :
    exec (searchUrls table url) s =
      (.ok (table.find? (·.isMatch url)).isSome,
        s.setCgi (((table.find? (·.isMatch url)).map (·.cgiCb)).or s.conn.cgi)) := by
  unfold searchUrls
  cases table.find? (·.isMatch url) <;> rfl

/-- A match is found exactly if the tables have a callback, which is then the connection's. -/
theorem exec_isMatchCgi (urls : UrlTables) {s : HttpState} {url : ℕ} {u : List UInt8}
    (hurl : s.conn.url = some url) (hu : StrAt s.urlMem url u) :
    exec (isMatchCgi urls) s =
      (.ok (matchCgi urls u).isSome, s.setCgi ((matchCgi urls u).or s.conn.cgi)) := by
  unfold isMatchCgi
  rw [exec_bind_ok (exec_view id s)]
  dsimp only [id]
  rw [hurl]
  dsimp only
  rw [cstring_eq hu, exec_bind_ok (exec_lift _ s), exec_bind_ok (exec_searchUrls _ u s),
    exec_bind_ok (exec_searchUrls _ u _)]
  unfold matchCgi
  cases urls.builtInUrls.find? (·.isMatch u) <;>
    cases urls.registeredUrlList.find? (·.isMatch u) <;> rfl

/-- The state in which a callback starts. -/
def HttpState.beforeCgi (s : HttpState) (cgi : ℕ) : HttpState :=
  (s.setCgi (some cgi)).push [.call cgi]

section

variable {handlers : Handlers} {s : HttpState} {cgi : ℕ} {r : ℤ} {evs : List HttpEvent}
  (hcb : exec (handlers cgi) (s.beforeCgi cgi) = (.ok r, (s.beforeCgi cgi).push evs))
include hcb

theorem exec_callCgi :
    exec (callCgi handlers) (s.setCgi (some cgi)) =
      (.ok r, (s.setCgi (some cgi)).push (.call cgi :: evs)) := by
  unfold callCgi
  rw [exec_bind_ok (exec_view (·.conn.cgi) (s.setCgi (some cgi)))]
  have hlog : exec (log (.call cgi)) (s.setCgi (some cgi)) = (.ok (), s.beforeCgi cgi) := rfl
  show exec (log (.call cgi) >>= fun _ => handlers cgi) _ = _
  rw [exec_bind_ok hlog, hcb, HttpState.beforeCgi, HttpState.push_push]
  rfl

/-- A callback that finds something has answered. -/
theorem exec_runCgi_found (io : Io) (hr : r ≠ httpdCgiNotfound) :
    exec (runCgi io handlers) (s.setCgi (some cgi)) =
      (.ok r, (s.setCgi none).push (.call cgi :: evs)) := by
  unfold runCgi
  rw [exec_bind_ok (exec_callCgi hcb), exec_bind_ok (exec_clearCgi _), exec_ite, if_neg hr]
  rfl

/-- In place of a callback that finds nothing the server answers. -/
theorem exec_runCgi_notFound (io : Io) (hr : r = httpdCgiNotfound) :
    exec (runCgi io handlers) (s.setCgi (some cgi)) =
      exec (httpdNotFound io) ((s.setCgi none).push (.call cgi :: evs)) := by
  unfold runCgi
  rw [exec_bind_ok (exec_callCgi hcb), exec_bind_ok (exec_clearCgi _), exec_ite, if_pos hr]
  rfl

/-- The callback that is left is run. -/
theorem exec_runLeftCgi (hurl : s.conn.url.isSome) :
    exec (runLeftCgi handlers) (s.setCgi (some cgi)) =
      (.ok (), (s.setCgi (some cgi)).push (.call cgi :: evs)) := by
  unfold runLeftCgi
  rw [exec_bind_ok (exec_view (·.conn) (s.setCgi (some cgi))), exec_ite, if_pos ⟨hurl, rfl⟩,
    exec_bind_ok (exec_callCgi hcb)]
  rfl

end

/-- Nothing is run if no callback is left. -/
theorem exec_runLeftCgi_none {handlers : Handlers} {s : HttpState} (h : s.conn.cgi = none) :
    exec (runLeftCgi handlers) s = (.ok (), s) := by
  unfold runLeftCgi
  rw [exec_bind_ok (exec_view (·.conn) s), exec_ite, if_neg (by simp [h])]
  rfl

/-! ## The end of a request -/

/-- What is kept by the end of a request, and what is marked by it. -/
theorem exec_endRequest (r : ℤ) (s : HttpState) :
    ∃ s', exec (endRequest r) s = (.ok (), s') ∧ s'.events = s.events ∧ s'.conn.cgi = s.conn.cgi ∧
      (r = httpdCgiDone → s'.conn.connectionDestructFlag = true) := by
  unfold endRequest
  obtain ⟨s₁, hs₁, hev, hcgi⟩ : ∃ s₁, exec (setHttpConn fun c =>
      if c.dataBuff.isSome then { c with isLargeData := false, dataBuff := none } else c) s =
        (.ok (), s₁) ∧ s₁.events = s.events ∧ s₁.conn.cgi = s.conn.cgi := by
    refine ⟨_, rfl, rfl, ?_⟩
    show (if s.conn.dataBuff.isSome then _ else s.conn).cgi = _
    split <;> rfl
  rw [exec_bind_ok hs₁, exec_ite]
  split
  · exact ⟨_, rfl, hev, hcgi, fun _ => rfl⟩
  · rename_i hr
    exact ⟨s₁, rfl, hev, hcgi, fun h => absurd h hr⟩

/-- The request was processed by these events. At its end the connection is given up, or else no
callback is left. -/
def Processed (s : HttpState) (evs : List HttpEvent) (out : Except Fault Unit × HttpState) : Prop :=
  out.1 = .ok () ∧ out.2.events = s.events ++ evs ∧
    (out.2.conn.connectionDestructFlag = true ∨ out.2.conn.cgi = none)

/-- A request whose method leaves no callback behind. -/
theorem processed_of_no_cgi {io : Io} {urls : UrlTables} {handlers : Handlers} {s t : HttpState}
    {r : ℤ} {evs : List HttpEvent} (hexec : exec (processRequest io urls handlers) s = (.ok r, t))
    (hevents : t.events = s.events ++ evs) (hcgi : t.conn.cgi = none) :
    Processed s evs (exec (dispatch io urls handlers) s) := by
  obtain ⟨s', hend, hev, hcgi', -⟩ := exec_endRequest r t
  unfold dispatch
  rw [exec_bind_ok hexec, exec_bind_ok (exec_runLeftCgi_none hcgi), hend]
  exact ⟨rfl, hev.trans hevents, Or.inr (hcgi'.trans hcgi)⟩

/-! ## Requests with a callback -/

/-- The request asks for a WebSocket. -/
def IsUpgrade (c : Conn) : Prop := c.requestType = .get ∧ c.websocketClient = true

/-- The request is a `POST` or `PUT` without a body. -/
def LacksBody (c : Conn) : Prop := (c.requestType = .post ∨ c.requestType = .put) ∧ c.dataLen = 0

instance (c : Conn) : Decidable (IsUpgrade c) := by
  unfold IsUpgrade
  infer_instance

instance (c : Conn) : Decidable (LacksBody c) := by
  unfold LacksBody
  infer_instance

section

variable {io : Io} {urls : UrlTables} {handlers : Handlers} {s : HttpState} {url : ℕ}
  {u : List UInt8} (hurl : s.conn.url = some url) (hu : StrAt s.urlMem url u)
  (hmethod : s.conn.requestType ≠ .unknown) (hbody : ¬ LacksBody s.conn)
include hurl hu hbody

/-- A `POST` leaves its callback to be run later: the calls of `setsockopt` fail. -/
theorem exec_processRequest_post {cgi : ℕ} (hmatch : matchCgi urls u = some cgi)
    (hpost : s.conn.requestType = .post) :
    exec (processRequest io urls handlers) s = (.ok httpdCgiDone, s.setCgi (some cgi)) := by
  have hlen : 0 < s.conn.dataLen := Nat.pos_of_ne_zero fun h => hbody ⟨Or.inl hpost, h⟩
  have hisMatch := exec_isMatchCgi urls hurl hu
  rw [hmatch] at hisMatch
  unfold processRequest
  rw [exec_bind_ok (exec_view (·.conn) s), hpost]
  dsimp only
  rw [if_pos hlen]
  unfold httpdProcessPostRequest
  rw [exec_bind_ok hisMatch]
  rfl

include hmethod

/-- The other methods run it. -/
theorem exec_processRequest_matched {cgi : ℕ} (hmatch : matchCgi urls u = some cgi)
    (hupgrade : ¬ IsUpgrade s.conn) (hpost : s.conn.requestType ≠ .post) {r : ℤ}
    {evs : List HttpEvent}
    (hrun : exec (runCgi io handlers) (s.setCgi (some cgi)) =
      (.ok r, (s.setCgi none).push evs)) :
    exec (processRequest io urls handlers) s = (.ok httpdCgiDone, (s.setCgi none).push evs) := by
  have hisMatch := exec_isMatchCgi urls hurl hu
  rw [hmatch] at hisMatch
  have hput : exec (httpdProcessPutRequest io urls handlers) s =
      (.ok httpdCgiDone, (s.setCgi none).push evs) := by
    unfold httpdProcessPutRequest
    rw [exec_bind_ok hisMatch]
    show exec (runCgi io handlers >>= _) (s.setCgi (some cgi)) = _
    rw [exec_bind_ok hrun]
    rfl
  unfold processRequest
  rw [exec_bind_ok (exec_view (·.conn) s)]
  -- `PUT` and `GET` run the callback as `DELETE` does, behind a test of their own
  cases htype : s.conn.requestType with
  | unknown => exact absurd htype hmethod
  | post => exact absurd htype hpost
  | put =>
    have hlen : 0 < s.conn.dataLen := Nat.pos_of_ne_zero fun h => hbody ⟨Or.inr htype, h⟩
    dsimp only
    rw [if_pos hlen]
    exact hput
  | delete => exact hput
  | get =>
    have hws : s.conn.websocketClient = false :=
      Bool.eq_false_iff.mpr fun h => hupgrade ⟨htype, h⟩
    dsimp only
    unfold httpdProcessGetRequest
    rw [exec_bind_ok (exec_view (·.conn.websocketClient) s), hws]
    simp only [Bool.false_eq_true, if_false]
    rw [exec_bind_ok hisMatch]
    show exec (runCgi io handlers >>= _) (s.setCgi (some cgi)) = _
    rw [exec_bind_ok hrun]
    rfl

end

/-! ## Requests without a callback -/

/-- The start page is asked for and there is none. -/
def StartPageMissing (files : List FsEntry) (url : List UInt8) : Prop :=
  url = ascii "/" ∧ selected files (ascii "index.html") = none

section

variable {io : Io} (hio : io.Good) {files : List FsEntry} {s : HttpState} (hs : Serves s files)
  {ae : List UInt8} (hae : StrAt s.conn.acceptEncoding 0 ae) {url : ℕ} {u : List UInt8}
  (hurl : s.conn.url = some url) (hu : StrAt s.urlMem url u)
include hio hs hae hurl hu

/-- A URL without a callback is answered by one head, unless it is that of a missing start
page. -/
theorem exec_sendUrl (hne : u ≠ []) :
    ∃ r t evs, exec (sendUrl io) s = (.ok r, t) ∧ t.events = s.events ++ evs ∧
      t.conn.cgi = s.conn.cgi ∧ calls evs = [] ∧
      (¬ StartPageMissing files u → (heads evs).length = 1) := by
  unfold sendUrl
  rw [exec_bind_ok (exec_view id s)]
  dsimp only [id]
  rw [hurl]
  dsimp only
  rw [cstring_eq hu, exec_bind_ok (exec_lift _ s), exec_ite]
  split
  · rename_i hslash
    obtain ⟨s₁, hs₁⟩ : ∃ s₁ : HttpState, s₁ =
      { s with urlMem := ascii "index.html" ++ [0], conn := { s.conn with url := some 0 } } :=
        ⟨_, rfl⟩
    rw [exec_bind_ok (exec_update _ s), ← hs₁]
    have hserves : Serves s₁ files := by
      rw [hs₁]
      exact ⟨hs.img, hs.initDone⟩
    have hindex : StrAt s₁.urlMem 0 (ascii "index.html") := by
      rw [hs₁]
      exact ⟨by decide, [], rfl⟩
    have hsame : s₁.events = s.events ∧ s₁.conn.cgi = s.conn.cgi := by
      rw [hs₁]
      exact ⟨rfl, rfl⟩
    rcases exec_httpdSendWebFile hio hserves (by rw [hs₁]) hindex (by decide) with
      ⟨hsel, hexec⟩ | ⟨e, ext, buf, hsel, hexec⟩
    · exact ⟨_, _, [], hexec, by rw [hsame.1, List.append_nil], hsame.2, rfl,
        fun h => absurd ⟨hslash, hsel⟩ h⟩
    · exact ⟨_, _, _, hexec, by rw [HttpState.push_events, hsame.1], hsame.2,
        calls_fileEvents _ _ _ _, fun _ => by rw [heads_fileEvents]; rfl⟩
  · rcases exec_httpdSendWebFile hio hs hurl hu hne with ⟨-, hexec⟩ | ⟨e, ext, buf, -, hexec⟩
    · obtain ⟨evs, hnot, hheads, hcalls⟩ := exec_httpdNotFound hio hs hae
      rw [exec_bind_ok hexec, exec_ite, if_pos rfl]
      exact ⟨_, _, evs, hnot, rfl, rfl, hcalls, fun _ => hheads⟩
    · rw [exec_bind_ok hexec, exec_ite, if_neg (by decide)]
      exact ⟨_, _, _, rfl, rfl, rfl, calls_fileEvents _ _ _ _,
        fun _ => by rw [heads_fileEvents]; rfl⟩

/-- A request whose URL has no callback runs none, and is answered by one head. -/
theorem exec_processRequest_unmatched {urls : UrlTables} (handlers : Handlers)
    (hmethod : s.conn.requestType ≠ .unknown) (hbody : ¬ LacksBody s.conn)
    (hupgrade : ¬ IsUpgrade s.conn) (hcgi : s.conn.cgi = none) (hmatch : matchCgi urls u = none)
    (hne : s.conn.requestType = .get → u ≠ []) :
    ∃ t evs, exec (processRequest io urls handlers) s = (.ok httpdCgiDone, t) ∧
      t.events = s.events ++ evs ∧ t.conn.cgi = none ∧ calls evs = [] ∧
      (¬ (s.conn.requestType = .get ∧ StartPageMissing files u) → (heads evs).length = 1) := by
  have hisMatch : exec (isMatchCgi urls) s = (.ok false, s) := by
    rw [exec_isMatchCgi urls hurl hu, hmatch, Option.none_or, HttpState.setCgi_self s _ rfl]
    rfl
  obtain ⟨evs, hnot, hheads, hcalls⟩ := exec_httpdNotFound hio hs hae
  have hput : exec (httpdProcessPutRequest io urls handlers) s =
      (.ok httpdCgiDone, s.push evs) := by
    unfold httpdProcessPutRequest
    rw [exec_bind_ok hisMatch]
    simp only [Bool.false_eq_true, if_false]
    rw [exec_bind_ok hnot, exec_bind_ok (exec_clearCgi _), HttpState.setCgi_push,
      HttpState.setCgi_self s _ hcgi]
    rfl
  unfold processRequest
  rw [exec_bind_ok (exec_view (·.conn) s)]
  cases htype : s.conn.requestType with
  | unknown => exact absurd htype hmethod
  | post =>
    have hlen : 0 < s.conn.dataLen := Nat.pos_of_ne_zero fun h => hbody ⟨Or.inl htype, h⟩
    dsimp only
    rw [if_pos hlen]
    unfold httpdProcessPostRequest
    rw [exec_bind_ok hisMatch]
    simp only [Bool.false_eq_true, if_false]
    rw [exec_bind_ok hnot]
    exact ⟨_, evs, rfl, rfl, hcgi, hcalls, fun _ => hheads⟩
  | put =>
    have hlen : 0 < s.conn.dataLen := Nat.pos_of_ne_zero fun h => hbody ⟨Or.inr htype, h⟩
    dsimp only
    rw [if_pos hlen]
    exact ⟨_, evs, hput, rfl, hcgi, hcalls, fun _ => hheads⟩
  | delete => exact ⟨_, evs, hput, rfl, hcgi, hcalls, fun _ => hheads⟩
  | get =>
    have hws : s.conn.websocketClient = false :=
      Bool.eq_false_iff.mpr fun h => hupgrade ⟨htype, h⟩
    obtain ⟨r, t, evs', hsend, hevents, hcgi', hcalls', hheads'⟩ :=
      exec_sendUrl hio hs hae hurl hu (hne htype)
    dsimp only
    unfold httpdProcessGetRequest
    rw [exec_bind_ok (exec_view (·.conn.websocketClient) s), hws]
    simp only [Bool.false_eq_true, if_false]
    rw [exec_bind_ok hisMatch]
    simp only [Bool.false_eq_true, if_false]
    rw [exec_bind_ok hsend]
    exact ⟨t, evs', rfl, hevents, hcgi'.trans hcgi, hcalls', fun h => hheads' fun hm => h ⟨trivial, hm⟩⟩

end

/-! ## WebSocket handshakes -/

/-- The accept key of a key that leaves room for the UUID is a string of 28 characters. -/
theorem acceptKeyOf_eq {key : List UInt8} (hkey : key.length ≤ 475) :
    ∃ acceptKey, acceptKeyOf key = .ok acceptKey ∧ acceptKey.length = 28 := by
  have huuid : webSocketUuid.length = 36 := by decide
  have hdigest : 4 * (((Misc.sha1Result (Misc.sha1Write (Misc.sha1Init (Vector.replicate 16 0))
      (key ++ webSocketUuid))).length + 2) / 3) < 100 := by
    rw [Misc.length_sha1Result]
    decide
  obtain ⟨acceptKey, heq, -, hlen⟩ := Misc.base64Encode_eq hdigest
  rw [Misc.length_sha1Result] at hlen
  unfold acceptKeyOf
  rw [if_neg (by omega), heq]
  exact ⟨acceptKey, rfl, hlen⟩

/-- A handshake is answered by one head, which switches protocols. -/
theorem exec_acceptWebsocket {io : Io} (hio : io.Good) {s : HttpState} {clientKey : ℕ}
    {key : List UInt8} (hclientKey : s.conn.clientKey = some clientKey)
    (hkey : StrAt s.urlMem clientKey key) (hlen : key.length ≤ 475) :
    ∃ t evs h, exec (acceptWebsocket io) s = (.ok httpdCgiMore, t) ∧
      t.events = s.events ++ evs ∧ t.conn.cgi = s.conn.cgi ∧ calls evs = [] ∧
      heads evs = [h] ∧ h.status = 101 := by
  obtain ⟨acceptKey, haccept, hacceptLen⟩ := acceptKeyOf_eq hlen
  obtain ⟨h, hh⟩ : ∃ h, h = upgradeHead acceptKey := ⟨_, rfl⟩
  have hfit : h.render.length < wsServerCmdBufSize := by
    have hrender := Head.length_render_le h (by rw [hh]; show 101 < 2 ^ 32; norm_num)
    have hfields : fieldsLength h.fields = fieldsLength [(httpUpgrade, webSocketIdentifierUpper),
        (httpConnection, httpUpgrade)] +
          (webSocketAcceptIdentifier.length + acceptKey.length + 4) := by
      rw [hh]
      show fieldsLength ([_, _] ++ [(webSocketAcceptIdentifier, acceptKey)]) = _
      rw [fieldsLength_append]
      rfl
    have hconst : fieldsLength [(httpUpgrade, webSocketIdentifierUpper),
        (httpConnection, httpUpgrade)] + webSocketAcceptIdentifier.length = 61 := by
      decide +kernel
    unfold wsServerCmdBufSize
    omega
  have hwrite : ∀ t, exec (writeHead wsServerCmdBufSize h) t = (.ok (), t) := by
    intro t
    unfold writeHead
    rw [if_pos hfit]
    rfl
  obtain ⟨block, hblock, -⟩ := exec_memMalloc hio s 100
  obtain ⟨block', hblock', -⟩ := exec_memMalloc hio s wsServerCmdBufSize
  obtain ⟨t, ht⟩ : ∃ t : HttpState, t = { s.push [.head h h.render.length] with
      conn := { s.conn with websocketAuth := true } } := ⟨_, rfl⟩
  refine ⟨t, [.head h h.render.length], h, ?_, by rw [ht]; rfl, by rw [ht], rfl, rfl,
    by rw [hh]; rfl⟩
  unfold acceptWebsocket
  rw [exec_bind_ok hblock]
  dsimp only
  rw [exec_bind_ok (exec_view id s)]
  dsimp only [id]
  rw [hclientKey]
  dsimp only
  rw [cstring_eq hkey, exec_bind_ok (exec_lift _ s), haccept, exec_bind_ok (exec_lift _ s),
    exec_bind_ok hblock']
  dsimp only
  rw [← hh, exec_bind_ok (hwrite s), exec_bind_ok (exec_sendHead hio s h), ht]
  rfl

/-! ## One request, one response -/

/-- The two kinds of requests that get no answer: a `POST` whose callback finds nothing, and a
`GET` for a start page that is missing. -/
def Unanswered (urls : UrlTables) (handlers : Handlers) (files : List FsEntry) (s : HttpState)
    (u : List UInt8) : Prop :=
  (s.conn.requestType = .post ∧ ∃ cgi, matchCgi urls u = some cgi ∧
    ∃ t, exec (handlers cgi) (s.beforeCgi cgi) = (.ok httpdCgiNotfound, t)) ∨
  (s.conn.requestType = .get ∧ matchCgi urls u = none ∧ StartPageMissing files u)

/-- A callback that finds nothing is followed by the server's own answer. -/
def NotFoundAnswered (io : Io) (urls : UrlTables) (handlers : Handlers) (s : HttpState)
    (u : List UInt8) (evs : List HttpEvent) : Prop :=
  ∀ cgi evs₁, matchCgi urls u = some cgi → s.conn.requestType ≠ .post →
    exec (handlers cgi) (s.beforeCgi cgi) =
        (.ok httpdCgiNotfound, (s.beforeCgi cgi).push evs₁) →
      ∃ t answer, t = (s.setCgi none).push (.call cgi :: evs₁) ∧
        exec (httpdNotFound io) t = (.ok httpdCgiDone, t.push answer) ∧
        evs = .call cgi :: evs₁ ++ answer

/-- A `POST` whose URL has a callback. -/
theorem processed_post {io : Io} {files : List FsEntry} {s : HttpState} {url : ℕ} {u : List UInt8}
    (hurl : s.conn.url = some url) (hu : StrAt s.urlMem url u) {urls : UrlTables}
    {handlers : Handlers} {cgi : ℕ} (hcb : Callback (handlers cgi)) (hbody : ¬ LacksBody s.conn)
    (hmatch : matchCgi urls u = some cgi) (hpost : s.conn.requestType = .post) :
    ∃ evs, Processed s evs (exec (dispatch io urls handlers) s) ∧ calls evs = [cgi] ∧
      (OneHead (handlers cgi) → ¬ Unanswered urls handlers files s u → (heads evs).length = 1) := by
  obtain ⟨r, evs, hexec, hcalls⟩ := hcb.sends (s.beforeCgi cgi)
  obtain ⟨s', hend, hev, -, hdone⟩ :=
    exec_endRequest httpdCgiDone ((s.setCgi (some cgi)).push (.call cgi :: evs))
  refine ⟨.call cgi :: evs, ?_, by rw [calls_call, hcalls], fun hone hanswered => ?_⟩
  · unfold dispatch
    rw [exec_bind_ok (exec_processRequest_post hurl hu hbody hmatch hpost),
      exec_bind_ok (exec_runLeftCgi hexec (by rw [hurl]; rfl)), hend]
    exact ⟨rfl, hev, Or.inl (hdone rfl)⟩
  · have hr : r ≠ httpdCgiNotfound := by
      rintro rfl
      exact hanswered (Or.inl ⟨hpost, cgi, hmatch, _, hexec⟩)
    rw [heads_call, hone _ _ _ hexec, if_neg hr]

section

variable {io : Io} (hio : io.Good) {files : List FsEntry} {s : HttpState} (hs : Serves s files)
  {ae : List UInt8} (hae : StrAt s.conn.acceptEncoding 0 ae) {url : ℕ} {u : List UInt8}
  (hurl : s.conn.url = some url) (hu : StrAt s.urlMem url u) {urls : UrlTables}
  {handlers : Handlers}
include hio hs hae hurl hu

/-- A request of another method whose URL has a callback. -/
theorem processed_matched {cgi : ℕ} (hcb : Callback (handlers cgi))
    (hmethod : s.conn.requestType ≠ .unknown) (hbody : ¬ LacksBody s.conn)
    (hupgrade : ¬ IsUpgrade s.conn) (hmatch : matchCgi urls u = some cgi)
    (hpost : s.conn.requestType ≠ .post) :
    ∃ evs, Processed s evs (exec (dispatch io urls handlers) s) ∧ calls evs = [cgi] ∧
      NotFoundAnswered io urls handlers s u evs ∧
      (OneHead (handlers cgi) → (heads evs).length = 1) := by
  obtain ⟨r, evs, hexec, hcalls⟩ := hcb.sends (s.beforeCgi cgi)
  by_cases hr : r = httpdCgiNotfound
  · obtain ⟨answer, hanswer, hheads, hcalls'⟩ := exec_httpdNotFound hio
      ((hs.setCgi s none).push (.call cgi :: evs)) hae
    have hrun := exec_runCgi_notFound hexec io hr
    rw [hanswer, HttpState.push_push] at hrun
    have hprocess := exec_processRequest_matched hurl hu hmethod hbody hmatch hupgrade hpost hrun
    refine ⟨.call cgi :: evs ++ answer, processed_of_no_cgi hprocess rfl rfl, ?_, ?_, ?_⟩
    · rw [calls_append, calls_call, hcalls, hcalls']
      rfl
    · intro cgi' evs₁ hmatch' _ hexec'
      cases hmatch.symm.trans hmatch'
      obtain ⟨-, hstate⟩ := Prod.mk.inj (hexec.symm.trans hexec')
      cases HttpState.push_inj hstate
      exact ⟨_, answer, rfl, hanswer, rfl⟩
    · intro hone
      have hzero := hone _ _ _ hexec
      rw [if_pos hr] at hzero
      rw [heads_append, heads_call, List.length_append, hzero, hheads]
  · have hprocess := exec_processRequest_matched hurl hu hmethod hbody hmatch hupgrade hpost
      (exec_runCgi_found hexec io hr)
    refine ⟨.call cgi :: evs, processed_of_no_cgi hprocess rfl rfl, by rw [calls_call, hcalls],
      ?_, ?_⟩
    · intro cgi' evs₁ hmatch' _ hexec'
      cases hmatch.symm.trans hmatch'
      obtain ⟨hres, -⟩ := Prod.mk.inj (hexec.symm.trans hexec')
      exact absurd (Except.ok.inj hres) hr
    · intro hone
      rw [heads_call, hone _ _ _ hexec, if_neg hr]

end

/-- One request, one response. A WebSocket handshake is answered by a head that switches
protocols; a `POST` or `PUT` without a body is passed over. Any other request runs the callback
that the tables have for its URL, exactly once, and no other; a callback of a `GET`, `PUT` or
`DELETE` that finds nothing is followed by the answer of `HTTPd_NotFound`; and exactly one head
is sent if the callback sends one, except for the requests in `Unanswered`. -/
theorem dispatch_answers {io : Io} (hio : io.Good) {files : List FsEntry} {s : HttpState}
    (hs : Serves s files) {ae : List UInt8} (hae : StrAt s.conn.acceptEncoding 0 ae) {url : ℕ}
    {u : List UInt8} (hurl : s.conn.url = some url) (hu : StrAt s.urlMem url u)
    (hcgi : s.conn.cgi = none) (hmethod : s.conn.requestType ≠ .unknown) (urls : UrlTables)
    {handlers : Handlers} (hcb : ∀ cgi, Callback (handlers cgi)) :
    (IsUpgrade s.conn → ∀ clientKey key, s.conn.clientKey = some clientKey →
      StrAt s.urlMem clientKey key → key.length ≤ 475 →
        ∃ evs h, Processed s evs (exec (dispatch io urls handlers) s) ∧ calls evs = [] ∧
          heads evs = [h] ∧ h.status = 101) ∧
    (LacksBody s.conn → Processed s [] (exec (dispatch io urls handlers) s)) ∧
    (¬ IsUpgrade s.conn → ¬ LacksBody s.conn →
      (s.conn.requestType = .get → matchCgi urls u = none → u ≠ []) →
        ∃ evs, Processed s evs (exec (dispatch io urls handlers) s) ∧
          calls evs = (matchCgi urls u).toList ∧ NotFoundAnswered io urls handlers s u evs ∧
          ((∀ cgi, matchCgi urls u = some cgi → OneHead (handlers cgi)) →
            ¬ Unanswered urls handlers files s u → (heads evs).length = 1)) := by
  refine ⟨fun hupgrade clientKey key hclientKey hkey hlen => ?_, fun hbody => ?_,
    fun hupgrade hbody hne => ?_⟩
  · obtain ⟨t, evs, h, hexec, hevents, hcgi', hcalls, hheads, hstatus⟩ :=
      exec_acceptWebsocket hio hclientKey hkey hlen
    have hprocess : exec (processRequest io urls handlers) s = (.ok httpdCgiMore, t) := by
      unfold processRequest
      rw [exec_bind_ok (exec_view (·.conn) s), hupgrade.1]
      dsimp only
      unfold httpdProcessGetRequest
      rw [exec_bind_ok (exec_view (·.conn.websocketClient) s), hupgrade.2]
      exact hexec
    exact ⟨evs, h, processed_of_no_cgi hprocess hevents (hcgi'.trans hcgi), hcalls, hheads,
      hstatus⟩
  · have hprocess : exec (processRequest io urls handlers) s = (.ok httpdCgiDone, s) := by
      obtain ⟨htype | htype, hlen⟩ := hbody <;>
      · unfold processRequest
        rw [exec_bind_ok (exec_view (·.conn) s), htype]
        dsimp only
        rw [if_neg (by omega)]
        rfl
    exact processed_of_no_cgi hprocess (List.append_nil _).symm hcgi
  · cases hmatch : matchCgi urls u with
    | none =>
      obtain ⟨t, evs, hprocess, hevents, hcgi', hcalls, hheads⟩ :=
        exec_processRequest_unmatched hio hs hae hurl hu handlers hmethod hbody
          hupgrade hcgi hmatch fun hget => hne hget hmatch
      refine ⟨evs, processed_of_no_cgi hprocess hevents hcgi', hcalls, ?_, fun _ hanswered => ?_⟩
      · intro cgi evs₁ hmatch'
        rw [hmatch] at hmatch'
        cases hmatch'
      · exact hheads fun h => hanswered (Or.inr ⟨h.1, hmatch, h.2⟩)
    | some cgi =>
      by_cases hpost : s.conn.requestType = .post
      · obtain ⟨evs, hprocessed, hcalls, hheads⟩ :=
          processed_post hurl hu (hcb cgi) hbody hmatch hpost
        exact ⟨evs, hprocessed, hcalls, fun _ _ _ hne' => absurd hpost hne',
          fun hone => hheads (hone cgi rfl)⟩
      · obtain ⟨evs, hprocessed, hcalls, hnotFound, hheads⟩ :=
          processed_matched hio hs hae hurl hu (hcb cgi) hmethod hbody hupgrade hmatch hpost
        exact ⟨evs, hprocessed, hcalls, hnotFound, fun hone _ => hheads (hone cgi rfl)⟩

/-- A table with one callback, which answers every request in the same way. -/
def ledUrls : UrlTables where
  builtInUrls := []
  registeredUrlList := [⟨ascii "/LED_PWM/*", 0⟩]

def okHandlers : Handlers := fun _ => httpdSendCgiResponse Io.ideal 200 (ascii "json") (ascii "[]")

/-- A request for a URL that is about to be dispatched. -/
def HttpState.requesting (files : List FsEntry) (method : HttpdMethod) (url : List UInt8) :
    HttpState :=
  { HttpState.serving files url with
    conn := { Conn.fresh with url := some 0, requestType := method } }

/-- A `GET` for a URL with a callback. -/
theorem dispatch_answers_get :
    ∃ evs, Processed (.requesting someFiles .get (ascii "/LED_PWM/3")) evs
        (exec (dispatch Io.ideal ledUrls okHandlers)
          (.requesting someFiles .get (ascii "/LED_PWM/3"))) ∧
      calls evs = [0] ∧ (heads evs).length = 1 := by
  obtain ⟨-, -, hrequest⟩ := dispatch_answers Io.ideal_good
    (show Serves (.requesting someFiles .get (ascii "/LED_PWM/3")) someFiles from ⟨rfl, rfl⟩)
    (show StrAt _ 0 [] from ⟨by decide, List.replicate 63 0, rfl⟩) (u := ascii "/LED_PWM/3") rfl
    ⟨by decide, [], rfl⟩ rfl (by decide) ledUrls
    (show ∀ cgi, Callback (okHandlers cgi) from
      fun _ => (callback_httpdSendCgiResponse Io.ideal_good (by decide) _ _).1)
  obtain ⟨evs, hprocessed, hcalls, -, hheads⟩ := hrequest (by decide) (by decide)
    (fun _ _ => by decide)
  refine ⟨evs, hprocessed, hcalls.trans (by decide +kernel), hheads
    (fun _ _ => (callback_httpdSendCgiResponse Io.ideal_good (by decide) _ _).2) ?_⟩
  rintro (⟨h, -⟩ | ⟨-, h, -⟩)
  · exact absurd h (by decide)
  · exact absurd h (by decide +kernel)

/-- The callback is run once and one head is sent. -/
def OneResponse (urls : UrlTables) (u : List UInt8) (evs : List HttpEvent) : Prop :=
  calls evs = (matchCgi urls u).toList ∧ (heads evs).length = 1

/-- A `POST` with an empty body is neither given to its callback nor answered. -/
theorem not_oneResponse_emptyPost :
    (∀ cgi, OneHead (okHandlers cgi)) ∧ ¬ OneResponse ledUrls (ascii "/LED_PWM/*")
      (exec (dispatch Io.ideal ledUrls okHandlers)
        (.requesting someFiles .post (ascii "/LED_PWM/*"))).2.events := by
  refine ⟨fun _ => (callback_httpdSendCgiResponse Io.ideal_good (by decide) _ _).2, fun h => ?_⟩
  have hheads := h.2
  revert hheads
  decide +kernel

end WLink.Httpd
