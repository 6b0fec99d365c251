import WLink.Httpd.TaskRuns

/-!
# Requests that cannot be parsed

The task does not look at the result of the parser: what happens to a request that cannot be
parsed depends on what the parser has left in the record. `refused_iff` says when nothing is done
for it.

* `parseInMsgHeaders_reads` -- the record after the parser
* `dispatch_harmless` -- requests that no method takes up
* `dispatch_called`, `dispatch_null`, `dispatch_notFound` -- those that one does
-/

namespace WLink.Httpd

open WLink.Lib CString NeonRtFs Exec

/-! ## The record after the parser -/

/-- A NUL is not overwritten by another one. -/
theorem nul_set {m : List UInt8} {k : ℕ} (h : m[k]? = some 0) (p : ℕ) :
    (m.set p 0)[k]? = some 0 := by
  obtain ⟨hk, -⟩ := List.getElem?_eq_some_iff.mp h
  rw [List.getElem?_set]
  split
  · next hp => rw [if_pos (hp ▸ hk)]
  · exact h

/-- The URL, if there is one, is a string. -/
def UrlEnds (s : ParseState) : Prop :=
  ∀ p, s.conn.url = some p → ∃ k, p ≤ k ∧ s.mem[k]? = some 0

/-- What the request line of a head says, on all paths through the parser. -/
structure LineRead (mem : List UInt8) (s : ParseState) : Prop where
  method : getHeaderMethod mem 0 = .ok s.conn.requestType
  unknown : s.conn.requestType = .unknown → s.conn.url = none
  ends : UrlEnds s

theorem parseRequestLine_reads {s s' : ParseState} {r : Option ℕ}
    (hline : ∃ q, strstr s.mem 0 crlf = .ok (some q))
    (h : exec parseRequestLine s = (.ok r, s')) :
    LineRead s.mem s' ∧ (r.isSome → s'.conn.url.isSome) := by
  obtain ⟨q, hq⟩ := hline
  unfold parseRequestLine at h
  rw [exec_setConn_bind, exec_readMem_bind_eq_ok] at h
  obtain ⟨found, hfound, h⟩ := h
  obtain rfl : some q = found := Except.ok.inj (hq.symm.trans hfound)
  rw [exec_readMem_bind_eq_ok] at h
  obtain ⟨method, hmethod, h⟩ := h
  rw [exec_setConn_bind, exec_ite] at h
  by_cases hunknown : method = .unknown
  · rw [if_pos hunknown] at h
    cases h
    exact ⟨⟨hmethod, fun _ => rfl, fun p hp => (by cases hp)⟩, fun h => (by cases h)⟩
  rw [if_neg hunknown, exec_readMem_bind_eq_ok] at h
  obtain ⟨path, -, h⟩ := h
  rw [exec_setConn_bind] at h
  cases path with
  | none =>
    cases h
    exact ⟨⟨hmethod, fun _ => rfl, fun p hp => (by cases hp)⟩, fun h => (by cases h)⟩
  | some url =>
    dsimp only at h
    rw [exec_readMem_bind_eq_ok] at h
    obtain ⟨blank, hblank, h⟩ := h
    cases blank with
    | none =>
      cases h
      refine ⟨⟨hmethod, fun h => absurd h hunknown, fun p hp => ?_⟩, fun h => (by cases h)⟩
      cases hp
      exact nul_of_strstr hblank
    | some e =>
      have hle := strstr_le hblank
      dsimp only at h
      rw [exec_poke_bind_eq_ok] at h
      obtain ⟨he, h⟩ := h
      have hnul : (s.mem.set e 0)[e]? = some 0 := List.getElem?_set_self he
      rw [exec_readMem_bind_eq_ok] at h
      obtain ⟨args, -, h⟩ := h
      cases args with
      | none =>
        cases h
        refine ⟨⟨hmethod, fun h => absurd h hunknown, fun p hp => ?_⟩, fun _ => rfl⟩
        cases hp
        exact ⟨e, hle, hnul⟩
      | some a =>
        dsimp only at h
        rw [exec_poke_bind_eq_ok] at h
        obtain ⟨-, h⟩ := h
        cases h
        refine ⟨⟨hmethod, fun h => absurd h hunknown, fun p hp => ?_⟩, fun _ => rfl⟩
        cases hp
        exact ⟨e, hle, nul_set hnul a⟩

theorem urlEnds_parseUpgrade (secondLine : ℕ) : Preserves UrlEnds (parseUpgrade secondLine) := by
  have hread : ∀ {α : Type} (f : List UInt8 → Except Fault α), Preserves UrlEnds (readMem f) :=
    fun f s h => h
  have hpoke : ∀ p, Preserves UrlEnds (poke p 0) := by
    intro p s h
    rw [exec_poke]
    split
    · intro q hq
      obtain ⟨k, hk, hnul⟩ := h q hq
      exact ⟨k, hk, nul_set hnul p⟩
    · exact h
  unfold parseUpgrade
  refine (hread _).bind fun upgradeWs => ?_
  split
  · exact Preserves.pure _
  refine (hread _).bind fun websocket => Preserves.ite ?_ (Preserves.pure _)
  refine (hread _).bind fun key => ?_
  split
  · exact Preserves.pure _
  refine (hread _).bind fun e => (hpoke e).bind fun _ => ?_
  exact Preserves.bind (fun s h => h) fun _ => Preserves.bind (fun s h => h) fun _ => Preserves.pure _

theorem urlEnds_parseHeaderLines (secondLine : ℕ) :
    Preserves UrlEnds (parseHeaderLines secondLine) := by
  unfold parseHeaderLines
  refine Preserves.bind (fun s h => h) fun host => Preserves.bind (fun s h => h) fun _ => ?_
  refine Preserves.bind (fun s h => h) fun connStr => ?_
  split
  · exact Preserves.pure _
  refine Preserves.bind (fun s h => h) fun upgrade => ?_
  refine Preserves.ite (urlEnds_parseUpgrade _) ?_
  exact Preserves.of_keeps ((keeps_parsePlain _ _).comp fun t => (t.2.1.2.1, t.1))
    fun t => ∀ p, t.1 = some p → ∃ k, p ≤ k ∧ t.2[k]? = some 0

/-- A handshake that is refused has changed nothing. -/
theorem parseUpgrade_failed (P : ParseState → Prop) (secondLine : ℕ) :
    Triple P (parseUpgrade secondLine) (fun ret s => ret < 0 → P s) := by
  have hfail : Triple P (pure (-1) : Parse ℤ) (fun ret s => ret < 0 → P s) :=
    Triple.pure fun s h _ => h
  unfold parseUpgrade
  refine (Triple.viewE _).bind fun upgradeWs => ?_
  split
  · exact hfail
  refine (Triple.viewE _).bind fun websocket => Triple.ite (fun _ => ?_) fun _ => hfail
  refine (Triple.viewE _).bind fun key => ?_
  split
  · exact hfail
  refine Triple.seq fun e => Triple.seq fun _ => Triple.seq fun _ => Triple.seq fun _ => ?_
  exact Triple.pure fun s _ hret => absurd hret (by decide)

/-- The record is no WebSocket's, and its body is as long as it was. -/
def Untouched (dataLen : ℕ) (s : ParseState) : Prop :=
  s.conn.websocketClient = false ∧ s.conn.dataLen = dataLen

theorem parseHeaderLines_failed (dataLen secondLine : ℕ) :
    Triple (Untouched dataLen) (parseHeaderLines secondLine)
      (fun ret s => ret < 0 → Untouched dataLen s) := by
  have hzero : ∀ P : ParseState → Prop,
      Triple P (pure 0 : Parse ℤ) (fun ret s => ret < 0 → Untouched dataLen s) :=
    fun P => Triple.pure fun s _ hret => absurd hret (by decide)
  unfold parseHeaderLines
  refine (Triple.viewE _).bind fun host => (triple_setConn fun s h => h).bind fun _ => ?_
  refine (Triple.viewE _).bind fun connStr => ?_
  split
  · exact hzero _
  refine (Triple.viewE _).bind fun upgrade => Triple.ite (fun _ => parseUpgrade_failed _ _) fun _ => ?_
  unfold parsePlain
  exact Triple.seq fun _ => Triple.seq fun _ => Triple.seq fun _ => Triple.seq fun _ => hzero _

/-- What the parser leaves of a head with a first line. -/
structure HeadRead (c : Conn) (mem : List UInt8) (ret : ℤ) (s : ParseState) : Prop where
  line : LineRead mem s
  url : 0 ≤ ret → s.conn.url.isSome
  failed : ret < 0 → Untouched c.dataLen s

theorem parseInMsgHeaders_reads {c : Conn} (hclient : c.websocketClient = false)
    {mem : List UInt8} (hline : ∃ q, strstr mem 0 crlf = .ok (some q)) {ret : ℤ} {s : ParseState}
    (h : exec parseInMsgHeaders (.start c mem) = (.ok ret, s)) : HeadRead c mem ret s := by
  unfold parseInMsgHeaders at h
  obtain ⟨r, s₁, hreq, h⟩ := exec_bind_eq_ok.mp h
  obtain ⟨hread, hurl⟩ := parseRequestLine_reads hline hreq
  -- the request line touches neither the flag nor the length
  have huntouched : Untouched c.dataLen s₁ := by
    have hkeep := keeps_parseRequestLine_frame (.start c mem)
    rw [hreq] at hkeep
    exact ⟨(congrArg (·.2.1) hkeep).trans hclient, congrArg (·.2.2.2) hkeep⟩
  cases r with
  | none =>
    cases h
    exact ⟨hread, fun hret => absurd hret (by decide), fun _ => huntouched⟩
  | some secondLine =>
    -- what the first line has left outlives the headers
    have hkeep := keeps_parseHeaderLines secondLine s₁
    have hends := urlEnds_parseHeaderLines secondLine s₁ hread.ends
    rw [show exec (parseHeaderLines secondLine) s₁ = (.ok ret, s) from h] at hkeep hends
    have htype : s.conn.requestType = s₁.conn.requestType := congrArg (·.2.1) hkeep
    have hurl' : s.conn.url = s₁.conn.url := congrArg (·.2.2.1) hkeep
    refine ⟨⟨?_, ?_, hends⟩, fun _ => ?_, fun hret => ?_⟩
    · rw [htype]
      exact hread.method
    · rw [htype, hurl']
      exact hread.unknown
    · rw [hurl']
      exact hurl rfl
    · exact parseHeaderLines_failed _ _ s₁ ret s huntouched h hret

/-! ## Requests that no method takes up -/

/-- The texts that the server sends on its own account. -/
def builtInTexts : List (List UInt8) := [redirectPage.msg, notFoundPage.msg, retMsg]

/-- No callback is called and no file is sent. -/
structure Unserved (evs : List HttpEvent) : Prop where
  calls : calls evs = []
  texts : ∀ bs status, .body bs status ∈ evs → bs ∈ builtInTexts

/-- Nothing is left to run without a URL or without a callback. -/
theorem exec_runLeftCgi_idle {handlers : Handlers} {s : HttpState}
    (h : s.conn.url = none ∨ s.conn.cgi = none) : exec (runLeftCgi handlers) s = (.ok (), s) := by
  unfold runLeftCgi
  rw [exec_bind_ok (exec_view (·.conn) s), exec_ite, if_neg]
  · rfl
  · rintro ⟨hurl, hcgi⟩
    obtain h | h := h
    · rw [h] at hurl
      cases hurl
    · rw [h] at hcgi
      cases hcgi

/-- The end of a dispatch adds nothing to what the method has done. -/
theorem exec_dispatch_idle {io : Io} {urls : UrlTables} {handlers : Handlers} {s t : HttpState}
    {r : ℤ} (hprocess : exec (processRequest io urls handlers) s = (.ok r, t))
    (hidle : t.conn.url = none ∨ t.conn.cgi = none) :
    ∃ s', exec (dispatch io urls handlers) s = (.ok (), s') ∧ s'.events = t.events := by
  obtain ⟨s', hend, hevents, -⟩ := exec_endRequest r t
  refine ⟨s', ?_, hevents⟩
  unfold dispatch
  rw [exec_bind_ok hprocess, exec_bind_ok (exec_runLeftCgi_idle hidle), hend]

theorem dispatch_harmless (io : Io) (urls : UrlTables) (handlers : Handlers) {s : HttpState}
    (h : s.conn.requestType = .unknown ∨ LacksBody s.conn)
    (hidle : s.conn.url = none ∨ s.conn.cgi = none) :
    ∃ s', exec (dispatch io urls handlers) s = (.ok (), s') ∧ s'.events = s.events := by
  refine exec_dispatch_idle (r := httpdCgiDone) ?_ hidle
  unfold processRequest
  rw [exec_bind_ok (exec_view (·.conn) s)]
  obtain h | ⟨h | h, hlen⟩ := h
  · rw [h]
    rfl
  · rw [h, hlen]
    rfl
  · rw [h, hlen]
    rfl

/-! ## Requests that a method takes up -/

section

variable {s : HttpState} (hmethod : s.conn.requestType ≠ .unknown) (hbody : ¬ LacksBody s.conn)
  (hclient : s.conn.websocketClient = false)
include hmethod hbody hclient

/-- A server that knows one URL calls its callback. -/
theorem dispatch_called {url : ℕ} {u : List UInt8} (hurl : s.conn.url = some url)
    (hu : StrAt s.urlMem url u) :
    .call 0 ∈ (exec (dispatch .ideal ⟨[], [⟨u, 0⟩]⟩ fun _ => pure httpdCgiDone) s).2.events := by
  -- the only entry of the table is the URL that is asked for
  have hmatch : matchCgi ⟨[], [⟨u, 0⟩]⟩ u = some 0 := by simp [matchCgi, UrlItem.isMatch]
  have hcb : exec (pure httpdCgiDone : Http ℤ) (s.beforeCgi 0) =
      (.ok httpdCgiDone, (s.beforeCgi 0).push []) := by
    rw [exec_pure, HttpState.push, List.append_nil]
  -- a `POST` leaves its callback to the end of the dispatch, the other methods call it at once
  have hmem : ∀ evs, .call 0 ∈ s.events ++ .call 0 :: evs :=
    fun evs => List.mem_append_right _ List.mem_cons_self
  by_cases hpost : s.conn.requestType = .post
  · obtain ⟨s', hend, hevents, -⟩ :=
      exec_endRequest httpdCgiDone ((s.setCgi (some 0)).push [.call 0])
    unfold dispatch
    rw [exec_bind_ok (exec_processRequest_post hurl hu hbody hmatch hpost),
      exec_bind_ok (exec_runLeftCgi hcb
        (by rw [hurl]; rfl)), hend, hevents]
    exact hmem []
  · have hrun : exec (runCgi .ideal fun _ => pure httpdCgiDone) (s.setCgi (some 0)) =
        (.ok httpdCgiDone, (s.setCgi none).push [.call 0]) :=
      exec_runCgi_found hcb .ideal (by decide)
    obtain ⟨s', hexec, hevents⟩ := exec_dispatch_idle
      (exec_processRequest_matched hurl hu hmethod hbody hmatch (fun h => by
        rw [h.2] at hclient
        cases hclient) hpost hrun) (Or.inr rfl)
    rw [hexec, hevents]
    exact hmem []

end

/-- Without a URL there is no callback. -/
theorem exec_isMatchCgi_none (urls : UrlTables) {s : HttpState} (hurl : s.conn.url = none) :
    exec (isMatchCgi urls) s = (.ok false, s) := by
  unfold isMatchCgi
  rw [exec_bind_ok (exec_view id s)]
  dsimp only [id]
  rw [hurl]
  rfl

/-- A `GET` without a URL reads it. -/
theorem dispatch_null (io : Io) (urls : UrlTables) (handlers : Handlers) {s : HttpState}
    (hget : s.conn.requestType = .get) (hclient : s.conn.websocketClient = false)
    (hurl : s.conn.url = none) : (exec (dispatch io urls handlers) s).1 = .error .read := by
  -- `GET` asks for a file under the URL when no callback matches
  have hsend : exec (sendUrl io) s = (.error .read, s) := by
    unfold sendUrl
    rw [exec_bind_ok (exec_view id s)]
    dsimp only [id]
    rw [hurl]
    rfl
  have hprocess : exec (processRequest io urls handlers) s = (.error .read, s) := by
    unfold processRequest
    rw [exec_bind_ok (exec_view (·.conn) s), hget]
    dsimp only
    unfold httpdProcessGetRequest
    rw [exec_bind_ok (exec_view (·.conn.websocketClient) s), hclient]
    simp only [Bool.false_eq_true, if_false]
    rw [exec_bind_ok (exec_isMatchCgi_none urls hurl)]
    simp only [Bool.false_eq_true, if_false]
    rw [exec_bind_error hsend]
  unfold dispatch
  rw [exec_bind_error hprocess]

/-- A page for what is not found, stored as it is. -/
def pageFiles : List FsEntry := [{ someFiles.get ⟨2, by decide⟩ with gzip := false }]

/-- The page is sent for what is not found. -/
theorem exec_httpdNotFound_page {s : HttpState} (hs : Serves s pageFiles) :
    ∃ evs bs status, exec (httpdNotFound .ideal) s = (.ok httpdCgiDone, s.push evs) ∧
      .body bs status ∈ evs ∧ bs ∉ builtInTexts := by
  have hsel : selected pageFiles notFoundPage.fileName = some (pageFiles.get ⟨0, by decide⟩) := by
    rfl
  have haccepted : refusesGzip (pageIsGzip pageFiles notFoundPage) s.conn.acceptEncoding =
      .ok false := by
    unfold pageIsGzip
    rw [hsel]
    rfl
  have hfit : (pageHead pageFiles s.conn.connetionMode notFoundPage none).render.length <
      httpdCmdBufSize := by
    unfold pageHead
    rw [hsel]
    exact fileHead_fits _ (by decide) (by decide) (by decide) _
  obtain ⟨buf, -, hexec⟩ :=
    exec_httpdSendPage_accepted Io.ideal_good hs notFoundPage_html haccepted hfit
  rw [hsel] at hexec
  -- the page begins with the two bytes of gzip, none of the server's own texts does
  refine ⟨_, 31 :: 139 :: (buf.drop 2).take 2046, _, hexec,
    List.mem_cons_of_mem _ List.mem_cons_self, ?_⟩
  intro hmem
  have hhead : ∀ text ∈ builtInTexts, text.head? ≠ some 31 := by decide +kernel
  exact hhead _ hmem rfl

/-- The other methods send the page for what is not found. -/
theorem dispatch_notFound {s : HttpState} (hs : Serves s pageFiles)
    (hmethod : s.conn.requestType ≠ .unknown) (hget : s.conn.requestType ≠ .get)
    (hbody : ¬ LacksBody s.conn) (hurl : s.conn.url = none) (urls : UrlTables)
    (handlers : Handlers) :
    ∃ evs bs status, (exec (dispatch .ideal urls handlers) s).2.events = s.events ++ evs ∧
      .body bs status ∈ evs ∧ bs ∉ builtInTexts := by
  obtain ⟨evs, bs, status, hexec, hmem, hbs⟩ := exec_httpdNotFound_page hs
  have hisMatch := exec_isMatchCgi_none urls hurl
  obtain ⟨t, hprocess, hevents, hidle⟩ : ∃ t,
      exec (processRequest .ideal urls handlers) s = (.ok httpdCgiDone, t) ∧
        t.events = s.events ++ evs ∧ t.conn.url = none := by
    -- `PUT` and `DELETE` do the same
    have hput : exec (httpdProcessPutRequest .ideal urls handlers) s =
        (.ok httpdCgiDone, (s.push evs).setCgi none) := by
      unfold httpdProcessPutRequest
      rw [exec_bind_ok hisMatch]
      simp only [Bool.false_eq_true, if_false]
      rw [exec_bind_ok hexec]
      rfl
    unfold processRequest
    rw [exec_bind_ok (exec_view (·.conn) s)]
    cases htype : s.conn.requestType with
    | unknown => exact absurd htype hmethod
    | get => exact absurd htype hget
    | delete => exact ⟨_, hput, rfl, hurl⟩
    | put =>
      have hlen : 0 < s.conn.dataLen := Nat.pos_of_ne_zero fun h => hbody ⟨Or.inr htype, h⟩
      dsimp only
      rw [if_pos hlen]
      exact ⟨_, hput, rfl, hurl⟩
    | post =>
      have hlen : 0 < s.conn.dataLen := Nat.pos_of_ne_zero fun h => hbody ⟨Or.inl htype, h⟩
      dsimp only
      rw [if_pos hlen]
      unfold httpdProcessPostRequest
      rw [exec_bind_ok hisMatch]
      simp only [Bool.false_eq_true, if_false]
      rw [exec_bind_ok hexec]
      exact ⟨_, rfl, rfl, hurl⟩
  obtain ⟨s', hdispatch, hevents'⟩ := exec_dispatch_idle hprocess (Or.inl hidle)
  refine ⟨evs, bs, status, ?_, hmem, hbs⟩
  rw [hdispatch, hevents', hevents]

/-! ## Requests that cannot be parsed -/

/-- Whatever the surroundings are: once the request has been received, its dispatch returns, and
it neither calls a callback nor sends a file. A missing URL that is read would be a fault. -/
def Refused (mem : List UInt8) (c : Conn) : Prop :=
  ∀ (env : PassEnv) (stream img : List UInt8) (initDone : Bool) (evs : List HttpEvent) (c' : Conn)
    (rest : List UInt8),
    receiveBody env.body env.bodyRecvs c stream = (.ok .received, c', rest) →
      ∃ s' new, exec (dispatch env.io env.urls env.handlers) ⟨img, initDone, c', mem, evs⟩ =
        (.ok (), s') ∧ s'.events = evs ++ new ∧ Unserved new

/-- Every body can be received. -/
theorem exists_received (c : Conn) :
    ∃ block rs stream, (receiveBody block rs c stream).1 = .ok .received := by
  by_cases hzero : c.dataLen = 0
  · exact ⟨none, [], [], congrArg Prod.fst (if_pos hzero)⟩
  by_cases hlarge : 4096 < c.dataLen
  · exact ⟨none, [], [], congrArg Prod.fst ((if_neg hzero).trans (if_pos hlarge))⟩
  refine ⟨some (List.replicate c.dataLen 0), [.got c.dataLen], List.replicate c.dataLen 0, ?_⟩
  -- one call of `recv` that gets all of it
  have hfits : 0 + ((List.replicate c.dataLen (0 : UInt8)).take c.dataLen).length ≤
      (List.replicate c.dataLen (0 : UInt8)).length := by
    simp
  have hstore := storeAt_ok hfits
  have hlen : (0 + c.dataLen) % 2 ^ 16 = c.dataLen := by
    rw [Nat.zero_add]
    exact Nat.mod_eq_of_lt (by omega)
  unfold receiveBody
  rw [if_neg hzero, if_neg hlarge]
  refine (leaveBodyLoop_fst c _).trans ?_
  unfold bodyLoop
  simp only [RecvResult.verdict, hstore, hlen, Nat.lt_irrefl, if_false]

theorem calls_ne_nil {cgi : ℕ} {evs : List HttpEvent} (h : .call cgi ∈ evs) : calls evs ≠ [] := by
  intro hnil
  have hmem : cgi ∈ calls evs := List.mem_filterMap.mpr ⟨_, h, rfl⟩
  rw [hnil] at hmem
  cases hmem

/-- A request whose body has been received has the record that the parser left. -/
structure ReceivedFor (s : ParseState) (c : Conn) : Prop where
  requestType : c.requestType = s.conn.requestType
  dataLen : c.dataLen = s.conn.dataLen
  websocketClient : c.websocketClient = s.conn.websocketClient
  url : c.url = s.conn.url
  cgi : c.cgi = s.conn.cgi

theorem receivedFor_receiveBody (s : ParseState) (block : Option (List UInt8))
    (rs : List RecvResult) (stream : List UInt8) :
    ReceivedFor s (receiveBody block rs s.timed stream).2.1 := by
  obtain ⟨timer, htimed⟩ := timed_eq s
  have h := receiveBody_unreceived block rs s.timed stream
  rw [htimed] at h ⊢
  exact ⟨congrArg (·.requestType) h, congrArg (·.dataLen) h, congrArg (·.websocketClient) h,
    congrArg (·.url) h, congrArg (·.cgi) h⟩

theorem ReceivedFor.lacksBody {s : ParseState} {c : Conn} (h : ReceivedFor s c) :
    LacksBody c ↔ LacksBody s.conn := by
  unfold LacksBody
  rw [h.requestType, h.dataLen]

/-- A request that has been received is refused if no method takes it up, and only then. -/
theorem refused_iff_of_read {c : Conn} {mem : List UInt8} {ret : ℤ} {s : ParseState}
    (hread : HeadRead c mem ret s) (hret : ret < 0) (hcgi : s.conn.cgi = none) :
    Refused s.mem s.timed ↔ s.conn.requestType = .unknown ∨ LacksBody s.conn := by
  constructor
  · intro hrefused
    by_contra hnot
    obtain ⟨hmethod, hbody⟩ := not_or.mp hnot
    obtain ⟨block, rs, stream, hreceived⟩ := exists_received s.timed
    obtain ⟨out, hout⟩ : ∃ out, out = receiveBody block rs s.timed stream := ⟨_, rfl⟩
    have hfor : ReceivedFor s out.2.1 := hout ▸ receivedFor_receiveBody s block rs stream
    have hclient : out.2.1.websocketClient = false :=
      hfor.websocketClient.trans (hread.failed hret).1
    have hmethod' : out.2.1.requestType ≠ .unknown := fun h => hmethod (hfor.requestType.symm.trans h)
    have hbody' : ¬ LacksBody out.2.1 := fun h => hbody (hfor.lacksBody.mp h)
    have hdispatch : ∀ urls img, ∃ s' new,
        exec (dispatch .ideal urls fun _ => pure httpdCgiDone) ⟨img, true, out.2.1, s.mem, []⟩ =
          (.ok (), s') ∧ s'.events = new ∧ Unserved new := fun urls img =>
      hrefused { PassEnv.arriving 0 block with bodyRecvs := rs, urls := urls } stream img true []
        out.2.1 out.2.2 (by rw [← hreceived, ← hout]; exact hout.symm)
    cases hurl : s.conn.url with
    | some p =>
      obtain ⟨k, hk, hnul⟩ := hread.line.ends p hurl
      obtain ⟨u, hu, -⟩ := StrAt.exists_of_nul hnul hk
      obtain ⟨s', new, hexec, rfl, hunserved⟩ := hdispatch ⟨[], [⟨u, 0⟩]⟩ []
      have hcall := dispatch_called (s := ⟨[], true, out.2.1, s.mem, []⟩) hmethod' hbody' hclient
        (hfor.url.trans hurl) hu
      rw [hexec] at hcall
      exact calls_ne_nil hcall hunserved.calls
    | none =>
      obtain ⟨s', new, hexec, rfl, hunserved⟩ := hdispatch ⟨[], []⟩ (encodeImage pageFiles)
      by_cases hget : out.2.1.requestType = .get
      · have hnull := dispatch_null .ideal ⟨[], []⟩ (fun _ => pure httpdCgiDone)
          (s := ⟨encodeImage pageFiles, true, out.2.1, s.mem, []⟩) hget hclient
          (hfor.url.trans hurl)
        rw [hexec] at hnull
        cases hnull
      · obtain ⟨evs, bs, status, hevents, hmem, hbs⟩ := dispatch_notFound
          (s := ⟨encodeImage pageFiles, true, out.2.1, s.mem, []⟩) ⟨rfl, rfl⟩ hmethod' hget hbody'
          (hfor.url.trans hurl) ⟨[], []⟩ (fun _ => pure httpdCgiDone)
        rw [hexec] at hevents
        exact hbs (hunserved.texts bs status (hevents ▸ hmem))
  · intro h env stream img initDone evs c' rest hreceived
    have hfor : ReceivedFor s c' := by
      have := receivedFor_receiveBody s env.body env.bodyRecvs stream
      rwa [hreceived] at this
    obtain ⟨s', hexec, hevents⟩ := dispatch_harmless env.io env.urls env.handlers
      (s := ⟨img, initDone, c', s.mem, evs⟩)
      (h.imp (fun h => hfor.requestType.trans h) hfor.lacksBody.mpr) (Or.inr (hfor.cgi.trans hcgi))
    exact ⟨s', [], hexec, by rw [hevents, List.append_nil], rfl, fun bs status hbs => (by cases hbs)⟩

/-! ## Runs -/

/-- A connection that is still served has no callback left. -/
def NoCgi (s : TaskState) : Prop :=
  s.Ended ∨ s.conn.websocketClient = true ∨ s.conn.cgi = none

/-- An expiry only touches the timer and the mark. -/
theorem TaskState.expireIf_unserved (s : TaskState) (expires : Bool) :
    (s.expireIf expires).conn.unserved = s.conn.unserved := by
  cases expires with
  | false => rfl
  | true =>
    show s.conn.expire.unserved = _
    unfold Conn.expire
    split <;> rfl

/-- The parser leaves the callback alone. -/
theorem cgi_parse (c : Conn) (cmdBuf : List UInt8) : (c.parse cmdBuf).2.conn.cgi = c.cgi :=
  congrArg (·.cgi) (keeps_parseInMsgHeaders (.start c.timerStop cmdBuf))

theorem NoCgi.step {s : TaskState} {e : TaskEvent} (h : NoCgi s) (hfit : RecvKeepsContract s e) :
    NoCgi (taskStep s e) := by
  have hserved (hlive : s.live = true) (hflag : s.conn.connectionDestructFlag = false) :
      s.conn.websocketClient = true ∨ s.conn.cgi = none := by
    obtain hended | h := h
    · exact absurd hended (TaskState.not_ended hlive hflag)
    · exact h
  cases taskStep_result hfit with
  | ended logs ended => exact Or.inl ended
  | idle logs conn taken live =>
    unfold NoCgi TaskState.Ended
    rw [conn]
    cases hlive : (taskStep s e).live with
    | false => exact Or.inl (Or.inl rfl)
    | true =>
      cases hflag : s.conn.connectionDestructFlag with
      | true => exact Or.inl (Or.inr rfl)
      | false => exact Or.inr (hserved (live hlive) hflag)
  | overflow logs conn overflows =>
    obtain ⟨hlive, hflag, -, -⟩ := TaskState.receivesHead_iff.mp overflows.1
    right
    rw [conn]
    exact hserved hlive hflag
  | websocket logs client live flag stays =>
    exact Or.inr (Or.inl ((congrArg (·.websocketClient) stays.1).trans client))
  | @request env out request takesUp =>
    obtain ⟨hlive, hflag, hclient, -⟩ :=
      TaskState.receivesHead_iff.mp (TaskState.request_eq request).1
    obtain hended | ⟨-, hunstored | hws⟩ := takesUp.exit
    · exact Or.inl hended
    · right
      right
      obtain ⟨timer, htimed⟩ := timed_eq out.2
      have hcgi : s.conn.cgi = none := (hserved hlive hflag).resolve_left (by simp [hclient])
      have heq : (taskStep s (.pass env)).conn.cgi = out.2.timed.cgi :=
        congrArg (·.cgi) hunstored.2.2
      obtain ⟨-, buf, rfl⟩ := TaskState.request_eq request
      rw [heq, htimed]
      exact (cgi_parse _ buf).trans
        ((congrArg (·.cgi) (s.expireIf_unserved env.expires)).trans hcgi)
    · exact Or.inr (Or.inl hws.client)

/-- A head has a first line. -/
theorem strstr_crlf_headBuffer {stream : List UInt8} {q : ℕ} (h : headEnd stream = some q) :
    ∃ k, strstr (headBuffer stream q) 0 crlf = .ok (some k) := by
  have hfound : strstr (stream.take httpdCmdBufSize) 0 blankLine = .ok (some q) := by
    unfold headEnd at h
    split at h
    · next found hfound => rw [hfound, h]
    · cases h
  have hlen : q + 4 ≤ (stream.take httpdCmdBufSize).length := by
    have := (prefix_of_strstr hfound).length_le
    rw [List.length_drop] at this
    have h4 : blankLine.length = 4 := rfl
    omega
  have htake : (stream.take httpdCmdBufSize).take (q + 4) = (headBuffer stream q).take (q + 4) := by
    rw [List.length_take] at hlen
    unfold headBuffer
    rw [List.take_take, Nat.min_eq_left (by omega),
      List.take_left' (List.length_take_of_le (by omega))]
  have hbuf := strstr_congr_take (by decide) hfound (le_refl _) htake
  obtain ⟨hlt, hpre, hnul, -⟩ := strstr_zero_eq_some_iff.mp hbuf
  obtain ⟨k, hk⟩ := strstrFrom_found hlt ((show crlf <+: blankLine by decide).trans hpre) hnul
  refine ⟨0 + k, ?_⟩
  unfold strstr
  rw [List.drop_zero, hk]
  rfl

/-- No method takes the head up: it has none, or it is a `POST` or `PUT` on a connection whose last
body had no length. -/
def FailsHarmlessly (cmdBuf : List UInt8) (c : Conn) : Prop :=
  getHeaderMethod cmdBuf 0 = .ok .unknown ∨
    (getHeaderMethod cmdBuf 0 = .ok .post ∨ getHeaderMethod cmdBuf 0 = .ok .put) ∧ c.dataLen = 0

/-- In every state that a run reaches: a head that is parsed has a URL, and one that cannot be
parsed is not dispatched if and only if no method takes it up. -/
theorem refused_iff (sock : ℤ) (old : Conn) (optionsSet : Bool) (stream img : List UInt8)
    (initDone : Bool) (es : List TaskEvent)
    (hfit : AllSteps taskStep RecvKeepsContract (.start sock old optionsSet stream img initDone) es)
    {s : TaskState} (hs : s = es.foldl taskStep (.start sock old optionsSet stream img initDone))
    {env : PassEnv} (hreceives : s.receivesHead env = true) {q : ℕ}
    (hend : headEnd s.stream = some q) {ret : ℤ} {st : ParseState}
    (hparse : (s.expireIf env.expires).conn.parse (headBuffer s.stream q) = (.ok ret, st)) :
    (0 ≤ ret → st.conn.url.isSome) ∧
      (ret < 0 → (Refused st.mem st.timed ↔ FailsHarmlessly (headBuffer s.stream q) s.conn)) := by
  have hstart : NoCgi (.start sock old optionsSet stream img initDone) := by
    cases optionsSet <;> exact Or.inr (Or.inr rfl)
  have hnoCgi : NoCgi s := by
    rw [hs]
    exact (always_of_allSteps (fun s e h hf => h.step hf) hstart hfit).last
  obtain ⟨hlive, hflag, hclient, -⟩ := TaskState.receivesHead_iff.mp hreceives
  have hcgi : s.conn.cgi = none := by
    obtain hended | hws | hcgi := hnoCgi
    · exact absurd hended (TaskState.not_ended hlive hflag)
    · exact absurd (hclient.symm.trans hws) (by decide)
    · exact hcgi
  have hsame := s.expireIf_unserved env.expires
  have hread := parseInMsgHeaders_reads (c := (s.expireIf env.expires).conn.timerStop)
    ((congrArg (·.websocketClient) hsame).trans hclient) (strstr_crlf_headBuffer hend) hparse
  have hdata : (s.expireIf env.expires).conn.timerStop.dataLen = s.conn.dataLen :=
    congrArg (·.dataLen) hsame
  have hcgi' : st.conn.cgi = none := by
    have := cgi_parse (s.expireIf env.expires).conn (headBuffer s.stream q)
    rw [hparse] at this
    exact this.trans ((congrArg (·.cgi) hsame).trans hcgi)
  refine ⟨hread.url, fun hret => ?_⟩
  rw [refused_iff_of_read hread hret hcgi']
  have hlen : st.conn.dataLen = s.conn.dataLen := (hread.failed hret).2.trans hdata
  unfold FailsHarmlessly LacksBody
  rw [hread.line.method, hlen]
  simp only [Except.ok.injEq]

/-- A method that the server does not know. -/
def headHead : List UInt8 := ascii "HEAD / HTTP/1.1\r\n\r\n"

theorem refused_headHead : ∃ st,
    ((TaskState.sending headHead).expireIf false).conn.parse (headBuffer headHead 15) =
      (.ok (-1), st) ∧ Refused st.mem st.timed := by
  obtain ⟨st, hst⟩ : ∃ st, ((TaskState.sending headHead).expireIf false).conn.parse
      (headBuffer headHead 15) = (.ok (-1), st) := by
    refine ⟨_, Prod.ext ?_ rfl⟩
    decide +kernel
  have hreceives : (TaskState.sending headHead).receivesHead (.arriving 19 none) = true := rfl
  have hend : headEnd (TaskState.sending headHead).stream = some 15 := by decide +kernel
  have hiff := refused_iff 5 Conn.fresh true headHead [] true [] trivial rfl hreceives hend hst
  exact ⟨st, hst, (hiff.2 (by decide)).mpr (Or.inl (by decide +kernel))⟩

/-- An upgrade to something else than a WebSocket. -/
def upgradeHeadLine : List UInt8 := ascii "GET / HTTP/1.1\r\nConnection: Upgrade\r\n\r\n"

/-- The handshake cannot be parsed, and the start page is sent. -/
theorem not_refused_upgrade : ∃ st,
    (TaskState.sending upgradeHeadLine).conn.parse (headBuffer upgradeHeadLine 35) =
      (.ok (-1), st) ∧ ¬ Refused st.mem st.timed := by
  obtain ⟨c, hc⟩ : ∃ c, c = (TaskState.sending upgradeHeadLine).conn := ⟨_, rfl⟩
  obtain ⟨⟨ret, st⟩, hst⟩ : ∃ out, c.parse (headBuffer upgradeHeadLine 35) = out := ⟨_, rfl⟩
  have hret : (c.parse (headBuffer upgradeHeadLine 35)).1 = .ok (-1) := by
    rw [hc]
    decide +kernel
  have hget : (c.parse (headBuffer upgradeHeadLine 35)).2.conn.requestType = .get := by
    rw [hc]
    decide +kernel
  rw [hst] at hret hget
  obtain rfl : ret = .ok (-1) := hret
  have hend : headEnd upgradeHeadLine = some 35 := by decide +kernel
  have hread := parseInMsgHeaders_reads (c := c.timerStop) (by rw [hc]; rfl)
    (strstr_crlf_headBuffer hend) hst
  have hcgi : st.conn.cgi = none := by
    have := cgi_parse c (headBuffer upgradeHeadLine 35)
    rw [hst, hc] at this
    exact this
  rw [← hc]
  refine ⟨st, hst, fun hrefused => ?_⟩
  obtain hunknown | ⟨hpost | hput, -⟩ := (refused_iff_of_read hread (by decide) hcgi).mp hrefused
  · exact absurd (hget.symm.trans hunknown) (by decide)
  · exact absurd (hget.symm.trans hpost) (by decide)
  · exact absurd (hget.symm.trans hput) (by decide)

end WLink.Httpd
