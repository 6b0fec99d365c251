import WLink.Httpd.Response

/-!
# Response heads and bodies

As long as nothing outside fails, `HTTPd_SendWebFile` and `HTTPd_Redirect` answer with exactly
the stored content of a file, its length and its encoding in the head
(`responses_agree`). The length in the head is the one that the record gives for the
decompressed file, and a page whose file is compressed by gzip is replaced by a short text for
a client that does not accept it. `HTTPd_NotFound` sends whole buffers
(`length_body_notFound`).
-/

namespace WLink.Httpd

open WLink.Lib CString NeonRtFs Exec

/-! ## What is sent -/

/-- The state after some more events. -/
def HttpState.push (s : HttpState) (evs : List HttpEvent) : HttpState :=
  { s with events := s.events ++ evs }

section

variable (s : HttpState) (evs : List HttpEvent)

@[simp] theorem HttpState.push_img : (s.push evs).img = s.img := rfl

@[simp] theorem HttpState.push_initDone : (s.push evs).initDone = s.initDone := rfl

@[simp] theorem HttpState.push_conn : (s.push evs).conn = s.conn := rfl

@[simp] theorem HttpState.push_events : (s.push evs).events = s.events ++ evs := rfl

@[simp] theorem HttpState.push_push (evs' : List HttpEvent) :
    (s.push evs).push evs' = s.push (evs ++ evs') := by
  unfold HttpState.push
  rw [List.append_assoc]

end

/-- The bytes that a list of `send`s without a head has sent. -/
def bodyOf : List HttpEvent → Option (List UInt8)
  | [] => some []
  | .body bs status :: evs => (bodyOf evs).map (bs.take status.toNat ++ ·)
  | _ :: _ => none

/-- The head and the body of a response. -/
def response : List HttpEvent → Option (Head × List UInt8)
  | .head h _ :: evs => (bodyOf evs).map fun body => (h, body)
  | _ => none

/-- A `send` that accepts everything. -/
def sent (bs : List UInt8) : HttpEvent := .body bs bs.length

theorem bodyOf_map_sent (chunks : List (List UInt8)) :
    bodyOf (chunks.map sent) = some chunks.flatten := by
  induction chunks with
  | nil => rfl
  | cons bs chunks ih =>
    rw [List.map_cons, sent, bodyOf, ih, Int.toNat_natCast, List.take_length]
    rfl

/-- The response is this content, and the head says how long it is and whether it is
compressed. -/
structure Agrees (evs : List HttpEvent) (content : List UInt8) (gzip : Bool) : Prop where
  exists_head : ∃ h, response evs = some (h, content) ∧
    h.field httpContentLength = some (decimal content.length) ∧
    h.field httpContentEncoding = if gzip then some (ascii "gzip") else none

/-! ## Primitives -/

section

variable {io : Io} (hio : io.Good) (s : HttpState)
include hio

theorem exec_memMalloc (size : ℕ) :
    ∃ block, exec (memMalloc io size) s = (.ok (some block), s) ∧ block.length = size := by
  obtain ⟨block, hblock, hlen⟩ := hio.malloc s.events size
  exact ⟨block, by rw [← hblock]; rfl, hlen⟩

theorem exec_sendHead (h : Head) :
    exec (sendHead io h) s = (.ok h.render.length, s.push [.head h h.render.length]) := by
  rw [← hio.send s.events h.render]
  rfl

theorem exec_sendBody (bs : List UInt8) :
    exec (sendBody io bs) s = (.ok bs.length, s.push [sent bs]) := by
  unfold sent
  rw [← hio.send s.events bs]
  rfl

/-- A head that fits its buffer is sent. -/
theorem exec_httpSendHeader {statusCode : ℕ} {contentType : List UInt8} {contentLength : ℤ}
    {isGzip : Bool} {newUrl : Option (List UInt8)} {h : Head}
    (hhead : h = fileHead s.conn.connetionMode statusCode contentType contentLength isGzip newUrl)
    (hfit : h.render.length < httpdCmdBufSize) :
    exec (httpSendHeader io statusCode contentType contentLength isGzip newUrl) s =
      (.ok httpdCgiMore, s.push [.head h h.render.length]) := by
  obtain ⟨block, hblock, -⟩ := exec_memMalloc hio s httpdCmdBufSize
  unfold httpSendHeader
  rw [exec_bind_ok hblock]
  dsimp only
  rw [exec_bind_ok (exec_view (·.conn) s), ← hhead]
  have hwrite : exec (writeHead httpdCmdBufSize h) s = (.ok (), s) := by
    unfold writeHead
    rw [if_pos hfit]
    rfl
  rw [exec_bind_ok hwrite, exec_bind_ok (exec_sendHead hio s h), exec_ite,
    if_neg (by omega)]
  rfl

end

/-- Only a location can make the head of a file too long for its buffer. -/
theorem fileHead_fits (mode : HttpdConnectionMode) {statusCode : ℕ} (hstatus : statusCode < 2 ^ 32)
    {contentType : List UInt8} (htype : contentType.length ≤ 16) {len : ℕ} (hlen : len < 2 ^ 32)
    (isGzip : Bool) :
    (fileHead mode statusCode contentType len isGzip none).render.length < httpdCmdBufSize := by
  have hrender := Head.length_render_le (fileHead mode statusCode contentType len isGzip none) hstatus
  have hdigits := length_decimal_le hlen
  have hconn : fieldsLength (connectionFields mode) ≤ 54 := by cases mode <;> decide
  have hserver : fieldsLength [httpServerField] = 30 := by decide
  have htypeName : httpContentType.length = 12 := by decide
  have hlenName : httpContentLength.length = 14 := by decide
  have hgzip : fieldsLength (if isGzip then [(httpContentEncoding, ascii "gzip")] else []) ≤ 24 := by
    cases isGzip <;> decide
  have hfields : fieldsLength (fileHead mode statusCode contentType len isGzip none).fields ≤ 170 := by
    show fieldsLength ([httpServerField] ++ connectionFields mode ++ [] ++
      [(httpContentType, contentType), (httpContentLength, sprintfD len)] ++ _) ≤ 170
    simp only [fieldsLength_append, fieldsLength_cons, fieldsLength_nil, sprintfD_natCast,
      htypeName, hlenName] at hserver ⊢
    omega
  unfold httpdCmdBufSize
  omega

/-- What the head of a file says about its length and encoding. -/
theorem fileHead_field (mode : HttpdConnectionMode) (statusCode : ℕ) (contentType : List UInt8)
    (len : ℕ) (isGzip : Bool) (newUrl : Option (List UInt8)) :
    (fileHead mode statusCode contentType len isGzip newUrl).field httpContentLength =
        some (decimal len) ∧
      (fileHead mode statusCode contentType len isGzip newUrl).field httpContentEncoding =
        if isGzip then some (ascii "gzip") else none := by
  have hconn : ∀ name ∈ [httpContentLength, httpContentEncoding],
      (httpServerField :: connectionFields mode).lookup name = none := by
    cases mode <;> decide +kernel
  have hloc : ∀ name ∈ [httpContentLength, httpContentEncoding],
      (locationFields newUrl).lookup name = none := by
    cases newUrl with
    | none => exact fun _ _ => rfl
    | some newUrl =>
      intro name hname
      have hne : (name == httpLocation) = false := by revert name; decide +kernel
      rw [locationFields, List.lookup_cons, hne]
      rfl
  unfold Head.field fileHead
  constructor
  · rw [List.append_assoc, List.append_assoc, List.lookup_append, hconn _ (by simp),
      Option.none_or, List.lookup_append, hloc _ (by simp), sprintfD_natCast]
    rfl
  · rw [List.append_assoc, List.append_assoc, List.lookup_append, hconn _ (by simp),
      Option.none_or, List.lookup_append, hloc _ (by simp)]
    cases isGzip <;> rfl

/-! ## Sending a file -/

/-- What the loop sends of the bytes `rest` that it still has to read: a part of the buffer for
each full buffer, and one more. -/
def sentChunks (sendLen : ℕ → ℕ) : ℕ → List UInt8 → List UInt8 → List (List UInt8)
  | 0, buf, rest => [(rest ++ buf.drop rest.length).take (sendLen rest.length)]
  | k + 1, buf, rest =>
    let bs := rest.take httpdDatBufSize
    let buf := bs ++ buf.drop bs.length
    buf.take (sendLen bs.length) :: sentChunks sendLen k buf (rest.drop httpdDatBufSize)

/-- If of each buffer just what was read into it is sent, the file is sent. -/
theorem flatten_sentChunks_id (k : ℕ) (buf rest : List UInt8) :
    (sentChunks id k buf rest).flatten = rest := by
  induction k generalizing buf rest with
  | zero => simp [sentChunks]
  | succ k ih =>
    unfold sentChunks
    rw [List.flatten_cons, ih, id, List.take_left]
    exact List.take_append_drop _ _

/-- If of each buffer everything is sent, the length is a multiple of that of the buffer. -/
theorem length_flatten_sentChunks_full {k : ℕ} {buf rest : List UInt8}
    (hbuf : buf.length = httpdDatBufSize) (hrest : rest.length / httpdDatBufSize = k) :
    (sentChunks (fun _ => httpdDatBufSize) k buf rest).flatten.length =
      httpdDatBufSize * (k + 1) := by
  -- the induction is on the number of whole buffers that are still to be read
  induction k generalizing buf rest with
  | zero =>
    have hlt : rest.length < httpdDatBufSize := by
      unfold httpdDatBufSize at hrest ⊢
      omega
    simp only [sentChunks, List.flatten_cons, List.flatten_nil, List.append_nil, List.length_take,
      List.length_append, List.length_drop]
    omega
  | succ k ih =>
    have hle : httpdDatBufSize ≤ rest.length := by
      unfold httpdDatBufSize at hrest ⊢
      omega
    have hlen : (rest.take httpdDatBufSize ++
        buf.drop (rest.take httpdDatBufSize).length).length = httpdDatBufSize := by
      simp only [List.length_append, List.length_take, List.length_drop]
      omega
    have hrest' : (rest.drop httpdDatBufSize).length / httpdDatBufSize = k := by
      rw [List.length_drop]
      unfold httpdDatBufSize at hrest ⊢
      omega
    unfold sentChunks
    rw [List.flatten_cons, List.length_append, ih hlen hrest', List.length_take, hlen,
      Nat.min_self]
    ring

section

variable {io : Io} (hio : io.Good) {sendLen : ℕ → ℕ}
include hio

/-- The loop sends the rest of an open file and ends. -/
theorem exec_sendLoop (hsendLen : sendLen httpdDatBufSize = httpdDatBufSize) {fuel off : ℕ}
    {s : HttpState} {fh : NeonRtFsFile} {content : List UInt8} (h : Opened s.img fh content off)
    (buf : List UInt8) (hfuel : (content.length - off) / httpdDatBufSize < fuel) :
    exec (sendLoop io sendLen fuel fh buf) s =
      (.ok (), s.push ((sentChunks sendLen ((content.length - off) / httpdDatBufSize) buf
        (content.drop off)).map sent)) := by
  induction fuel generalizing off s fh buf with
  | zero => exact absurd hfuel (Nat.not_lt_zero _)
  | succ fuel ih =>
    obtain ⟨fh', hread, h'⟩ := h.read httpdDatBufSize
    have hlift : exec (Exec.lift (neonRtFsRead s.img fh httpdDatBufSize)) s =
        (.ok ((content.drop off).take httpdDatBufSize, fh'), s) := by
      rw [hread]
      rfl
    unfold sendLoop
    rw [exec_bind_ok (exec_view (·.img) s), exec_bind_ok hlift]
    dsimp only
    rw [exec_bind_ok (exec_sendBody hio s _), exec_ite]
    -- a short read ends the loop, a full one leaves a buffer less to read
    rcases hk : (content.length - off) / httpdDatBufSize with _ | k
    · have hlt : (content.drop off).length < httpdDatBufSize := by
        rw [List.length_drop]
        unfold httpdDatBufSize at hk ⊢
        omega
      rw [List.take_of_length_le (Nat.le_of_lt hlt), if_neg (by omega)]
      rfl
    · have hge : httpdDatBufSize ≤ content.length - off := by
        unfold httpdDatBufSize at hk ⊢
        omega
      have hlen : ((content.drop off).take httpdDatBufSize).length = httpdDatBufSize := by
        rw [List.length_take, List.length_drop]
        omega
      have hnext : (content.length - (off + httpdDatBufSize)) / httpdDatBufSize = k := by
        unfold httpdDatBufSize at hk ⊢
        omega
      rw [Nat.min_eq_left hge] at h'
      rw [if_pos, ih (s := s.push _) h' _ (by omega), hnext, HttpState.push_push, sentChunks,
        List.drop_drop]
      · rfl
      · rw [hlen, hsendLen, List.length_take, List.length_append, hlen]
        unfold httpdDatBufSize
        omega

/-- A file is sent from its start to its end. -/
theorem exec_sendFile (hsendLen : sendLen httpdDatBufSize = httpdDatBufSize) {s : HttpState}
    {fh : NeonRtFsFile} {content : List UInt8} (h : Opened s.img fh content 0) :
    ∃ buf : List UInt8, buf.length = httpdDatBufSize ∧
      exec (sendFile io sendLen fh) s =
        (.ok (), s.push ((sentChunks sendLen (content.length / httpdDatBufSize) buf content).map
          sent)) := by
  obtain ⟨buf, hbuf, hlen⟩ := exec_memMalloc hio s httpdDatBufSize
  refine ⟨buf, hlen, ?_⟩
  unfold sendFile
  rw [exec_bind_ok hbuf]
  dsimp only
  have hfuel : content.length / httpdDatBufSize < s.img.length + 1 := by
    have := h.length_le
    have := Nat.div_le_self content.length httpdDatBufSize
    omega
  rw [exec_bind_ok (exec_view (·.img) s), exec_sendLoop hio hsendLen h buf hfuel]
  rfl

end

/-! ## The functions -/

theorem exec_openFile_of_ok {io : Io} {s : HttpState} {fileName : List UInt8}
    {fh : Option NeonRtFsFile} {initDone : Bool}
    (h : neonRtFsOpen s.img s.initDone (io.malloc s.events sizeofNeonRtFsFile).isSome fileName =
      .ok (fh, initDone)) :
    exec (openFile io fileName) s = (.ok fh, { s with initDone := initDone }) := by
  rw [openFile, exec_mk, h]

/-- The file system is initialised and holds these files. -/
structure Serves (s : HttpState) (files : List FsEntry) : Prop where
  img : s.img = encodeImage files
  initDone : s.initDone = true

theorem Serves.push {s : HttpState} {files : List FsEntry} (h : Serves s files)
    (evs : List HttpEvent) : Serves (s.push evs) files := ⟨h.img, h.initDone⟩

/-- The head and the content of a file, as events. -/
def fileEvents (sendLen : ℕ → ℕ) (h : Head) (buf content : List UInt8) : List HttpEvent :=
  .head h h.render.length ::
    (sentChunks sendLen (content.length / httpdDatBufSize) buf content).map sent

/-- The head and the text of a page without a file, as events. -/
def textEvents (h : Head) (text : List UInt8) : List HttpEvent :=
  [.head h h.render.length, sent text]

theorem response_fileEvents (sendLen : ℕ → ℕ) (h : Head) (buf content : List UInt8) :
    response (fileEvents sendLen h buf content) =
      some (h, (sentChunks sendLen (content.length / httpdDatBufSize) buf content).flatten) := by
  show (bodyOf (List.map sent _)).map _ = _
  rw [bodyOf_map_sent]
  rfl

theorem response_textEvents (h : Head) (text : List UInt8) :
    response (textEvents h text) = some (h, text) := by
  show (bodyOf ([text].map sent)).map _ = _
  rw [bodyOf_map_sent, List.flatten_cons, List.flatten_nil, List.append_nil]
  rfl

section

variable {io : Io} (hio : io.Good) {files : List FsEntry} {s : HttpState} (hs : Serves s files)
include hio hs

/-- Opening a file finds the record that its name selects. -/
theorem exec_openFile (fileName : List UInt8) :
    (selected files fileName = none ∧ exec (openFile io fileName) s = (.ok none, s)) ∨
      ∃ e fh, selected files fileName = some e ∧
        exec (openFile io fileName) s = (.ok (some fh), s) ∧
        fh.header = e.header ∧ Opened s.img fh e.content 0 := by
  have hblock : (io.malloc s.events sizeofNeonRtFsFile).isSome = true := by
    obtain ⟨block, hblock, -⟩ := hio.malloc s.events sizeofNeonRtFsFile
    rw [hblock]
    rfl
  have hexec : ∀ fh, neonRtFsOpen (encodeImage files) true true fileName = .ok (fh, true) →
      exec (openFile io fileName) s = (.ok fh, s) := by
    intro fh hopen
    have hopen' : neonRtFsOpen s.img s.initDone
        (io.malloc s.events sizeofNeonRtFsFile).isSome fileName = .ok (fh, s.initDone) := by
      rw [hs.initDone, hs.img, hblock, hopen]
    rw [exec_openFile_of_ok hopen']
  rcases neonRtFsOpen_cases files fileName with ⟨hsel, hopen⟩ | ⟨e, fh, hsel, hopen, hheader, h⟩
  · exact Or.inl ⟨hsel, hexec none hopen⟩
  · exact Or.inr ⟨e, fh, hsel, hexec _ hopen, hheader, by rw [hs.img]; exact h⟩

/-- `HTTPd_SendWebFile` sends the file that the URL names. -/
theorem exec_httpdSendWebFile {url : ℕ} {u : List UInt8} (hurl : s.conn.url = some url)
    (hu : StrAt s.urlMem url u) (hne : u ≠ []) :
    (selected files u = none ∧ exec (httpdSendWebFile io) s = (.ok httpdCgiNotfound, s)) ∨
      ∃ e ext buf, selected files u = some e ∧ exec (httpdSendWebFile io) s =
        (.ok httpdCgiDone, s.push (fileEvents id
          (fileHead s.conn.connetionMode 200 (mimeOf ext) e.lenDecomp e.gzip none)
          buf e.content)) := by
  obtain ⟨ext, hmime⟩ : ∃ ext, getMimetype s.urlMem url = .ok (mimeOf ext) :=
    ⟨extension u, getMimetype_eq hu hne⟩
  unfold httpdSendWebFile
  rw [exec_bind_ok (exec_view id s)]
  dsimp only [id]
  rw [hurl]
  dsimp only
  rw [hmime, exec_bind_ok (exec_lift _ s), cstring_eq hu, exec_bind_ok (exec_lift _ s)]
  rcases exec_openFile hio hs u with ⟨hsel, hopen⟩ | ⟨e, fh, hsel, hopen, hheader, h⟩
  · refine Or.inl ⟨hsel, ?_⟩
    rw [exec_bind_ok hopen]
    rfl
  · obtain ⟨hd, hhd⟩ : ∃ h, h =
        fileHead s.conn.connetionMode 200 (mimeOf ext) e.lenDecomp e.gzip none := ⟨_, rfl⟩
    have hfit : hd.render.length < httpdCmdBufSize := by
      rw [hhd]
      have := e.lenDecomp_lt
      exact fileHead_fits _ (by norm_num) (length_mimeOf_le ext) (by omega) _
    obtain ⟨buf, -, hsend⟩ := exec_sendFile hio (show id httpdDatBufSize = httpdDatBufSize from rfl)
      (s := s.push [.head hd hd.render.length]) h
    refine Or.inr ⟨e, ext, buf, hsel, ?_⟩
    -- what the driver reads from the file's header is what the entry says
    have hgzip : hasFlag (neonRtFsFlags (some fh)) flagGzip = e.gzip := by
      rw [neonRtFsFlags, hheader, hasFlag_gzip]
    have hlen : fh.header.fileLenDecomp = e.lenDecomp := by rw [hheader]; rfl
    rw [exec_bind_ok hopen]
    dsimp only
    rw [hgzip, hlen, exec_bind_ok (exec_httpSendHeader hio s hhd hfit), exec_ite,
      if_neg (by simp), exec_bind_ok hsend, ← hhd, HttpState.push_push]
    rfl

end

/-! ## The pages of the server -/

/-- The value of `Accept-Encoding` mentions gzip. -/
def acceptsGzip (acceptEncoding : List UInt8) : Bool :=
  (findSub (ascii "gzip") acceptEncoding).isSome

theorem refusesGzip_eq {m ae : List UInt8} (h : StrAt m 0 ae) (isGzip : Bool) :
    refusesGzip isGzip m = .ok (isGzip && !acceptsGzip ae) := by
  unfold refusesGzip acceptsGzip
  rw [strstr_eq h (by decide) (by decide)]
  cases isGzip with
  | false => rfl
  | true => cases findSub (ascii "gzip") ae <;> rfl

/-- Both pages are HTML files that are sent buffer by buffer. -/
structure Page.Html (page : Page) : Prop where
  contentType : getMimetype (page.fileName ++ [0]) 0 = .ok (ascii "text/html")
  sendLen : page.sendLen httpdDatBufSize = httpdDatBufSize

theorem redirectPage_html : redirectPage.Html := ⟨by decide +kernel, rfl⟩

theorem notFoundPage_html : notFoundPage.Html := ⟨by decide +kernel, rfl⟩

/-- The head in front of the text for a client that does not accept gzip. -/
def refusalHead (mode : HttpdConnectionMode) : Head :=
  fileHead mode 501 (ascii "text/plain") retMsg.length false none

/-- The flag that a page is sent with; a page without a file has all flags. -/
def pageIsGzip (files : List FsEntry) (page : Page) : Bool :=
  match selected files page.fileName with
  | some e => e.gzip
  | none => true

/-- The head of a page. -/
def pageHead (files : List FsEntry) (mode : HttpdConnectionMode) (page : Page)
    (newUrl : Option (List UInt8)) : Head :=
  match selected files page.fileName with
  | some e => fileHead mode page.statusCode (ascii "text/html") e.lenDecomp e.gzip newUrl
  | none => fileHead mode page.statusCode (ascii "text/plain") page.msg.length true newUrl

section

variable {io : Io} (hio : io.Good) {files : List FsEntry} {s : HttpState} (hs : Serves s files)
  {page : Page} (hpage : page.Html) {newUrl : Option (List UInt8)}
include hio hs

/-- A page that is compressed is not sent to a client that does not accept it. -/
theorem exec_httpdSendPage_refused {ae : List UInt8} (hae : StrAt s.conn.acceptEncoding 0 ae)
    (hgzip : pageIsGzip files page = true) (hrefused : acceptsGzip ae = false) :
    exec (httpdSendPage io page newUrl) s =
      (.ok httpdCgiDone, s.push (textEvents (refusalHead s.conn.connetionMode) retMsg)) := by
  -- without a file the flags are those of `NULL`, which count as gzip
  obtain ⟨file, hopen, hflag⟩ : ∃ file, exec (openFile io page.fileName) s = (.ok file, s) ∧
      hasFlag (neonRtFsFlags file) flagGzip = true := by
    unfold pageIsGzip at hgzip
    rcases exec_openFile hio hs page.fileName with ⟨hsel, hopen⟩ | ⟨e, fh, hsel, hopen, hheader, -⟩
    · exact ⟨none, hopen, by decide⟩
    · rw [hsel] at hgzip
      refine ⟨some fh, hopen, ?_⟩
      rw [neonRtFsFlags, hheader, hasFlag_gzip]
      exact hgzip
  have hlift : exec (Exec.lift (refusesGzip true s.conn.acceptEncoding)) s = (.ok true, s) := by
    rw [refusesGzip_eq hae, hrefused]
    rfl
  obtain ⟨h, hh⟩ : ∃ h, h = refusalHead s.conn.connetionMode := ⟨_, rfl⟩
  have hfit : h.render.length < httpdCmdBufSize := by
    rw [hh]
    exact fileHead_fits _ (by norm_num) (by decide) (by decide) _
  unfold httpdSendPage
  rw [exec_bind_ok hopen]
  dsimp only
  rw [exec_bind_ok (exec_view (·.conn) s), hflag, exec_bind_ok hlift, exec_ite, if_pos rfl,
    exec_bind_ok (exec_httpSendHeader hio s hh hfit), exec_ite, if_neg (by simp),
    exec_bind_ok (exec_sendBody hio _ retMsg), ← hh, HttpState.push_push]
  rfl

include hpage

/-- A page that is not refused is sent as its file if there is one, and else as its text. -/
theorem exec_httpdSendPage_accepted
    (haccepted : refusesGzip (pageIsGzip files page) s.conn.acceptEncoding = .ok false)
    (hfit : (pageHead files s.conn.connetionMode page newUrl).render.length < httpdCmdBufSize) :
    ∃ buf : List UInt8, buf.length = httpdDatBufSize ∧ exec (httpdSendPage io page newUrl) s =
      (.ok httpdCgiDone, s.push (match selected files page.fileName with
        | some e => fileEvents page.sendLen
            (pageHead files s.conn.connetionMode page newUrl) buf e.content
        | none => textEvents (pageHead files s.conn.connetionMode page newUrl) page.msg)) := by
  obtain ⟨h, hh⟩ : ∃ h, h = pageHead files s.conn.connetionMode page newUrl := ⟨_, rfl⟩
  have hlift : exec (Exec.lift (refusesGzip (pageIsGzip files page) s.conn.acceptEncoding)) s =
      (.ok false, s) := by
    rw [haccepted]
    rfl
  rw [← hh] at hfit ⊢
  rcases exec_openFile hio hs page.fileName with ⟨hsel, hopen⟩ | ⟨e, fh, hsel, hopen, hheader, hfh⟩
  · have hgzip : hasFlag (neonRtFsFlags none) flagGzip = pageIsGzip files page := by
      unfold pageIsGzip
      rw [hsel]
      decide
    -- no file: the page's own text is sent
    have hhead : h = fileHead s.conn.connetionMode page.statusCode (ascii "text/plain")
        page.msg.length (pageIsGzip files page) newUrl := by
      rw [hh, ← hgzip]
      unfold pageHead
      rw [hsel]
      rfl
    have hsend : ∀ t, exec (sendPageBody io page none) t = (.ok (), t.push [sent page.msg]) := by
      intro t
      unfold sendPageBody
      rw [exec_bind_ok (exec_sendBody hio t page.msg)]
      rfl
    refine ⟨List.replicate httpdDatBufSize 0, List.length_replicate, ?_⟩
    unfold httpdSendPage
    rw [exec_bind_ok hopen]
    dsimp only
    rw [exec_bind_ok (exec_view (·.conn) s), hgzip, exec_bind_ok hlift, exec_ite,
      if_neg (by simp), exec_bind_ok (exec_lift (pageContentType page none) s), pageContentLen,
      exec_bind_ok (exec_httpSendHeader hio s hhead hfit), exec_ite, if_neg (by simp),
      exec_bind_ok (hsend _), hsel, HttpState.push_push]
    rfl
  · have hgzip : hasFlag (neonRtFsFlags (some fh)) flagGzip = pageIsGzip files page := by
      unfold pageIsGzip
      rw [neonRtFsFlags, hheader, hasFlag_gzip, hsel]
    -- a file: its content is sent, with the length of what it unpacks to
    have hhead : h = fileHead s.conn.connetionMode page.statusCode (ascii "text/html")
        fh.header.fileLenDecomp (pageIsGzip files page) newUrl := by
      rw [hh, hheader]
      unfold pageHead pageIsGzip
      rw [hsel]
      rfl
    obtain ⟨buf, hbuf, hsend⟩ := exec_sendFile hio hpage.sendLen
      (s := s.push [.head h h.render.length]) hfh
    have htype : exec (Exec.lift (pageContentType page (some fh))) s =
        (.ok (ascii "text/html"), s) := by
      rw [pageContentType, hpage.contentType]
      rfl
    refine ⟨buf, hbuf, ?_⟩
    unfold httpdSendPage
    rw [exec_bind_ok hopen]
    dsimp only
    rw [exec_bind_ok (exec_view (·.conn) s), hgzip, exec_bind_ok hlift, exec_ite,
      if_neg (by simp), exec_bind_ok htype, pageContentLen,
      exec_bind_ok (exec_httpSendHeader hio s hhead hfit), exec_ite, if_neg (by simp)]
    dsimp only [sendPageBody]
    rw [exec_bind_ok hsend, hsel, HttpState.push_push]
    rfl

/-- A page is sent as its file if there is one, and else as its text. -/
theorem exec_httpdSendPage {ae : List UInt8} (hae : StrAt s.conn.acceptEncoding 0 ae)
    (haccepted : pageIsGzip files page = true → acceptsGzip ae = true)
    (hfit : (pageHead files s.conn.connetionMode page newUrl).render.length < httpdCmdBufSize) :
    ∃ buf : List UInt8, buf.length = httpdDatBufSize ∧ exec (httpdSendPage io page newUrl) s =
      (.ok httpdCgiDone, s.push (match selected files page.fileName with
        | some e => fileEvents page.sendLen
            (pageHead files s.conn.connetionMode page newUrl) buf e.content
        | none => textEvents (pageHead files s.conn.connetionMode page newUrl) page.msg)) := by
  refine exec_httpdSendPage_accepted hio hs hpage ?_ hfit
  rw [refusesGzip_eq hae]
  cases hgzip : pageIsGzip files page with
  | false => rfl
  | true =>
    rw [haccepted hgzip]
    rfl

end

/-! ## Heads and bodies agree -/

theorem agrees_fileEvents (mode : HttpdConnectionMode) (statusCode : ℕ) (contentType : List UInt8)
    (newUrl : Option (List UInt8)) (buf : List UInt8) (e : FsEntry)
    (hlen : e.lenDecomp = e.content.length) :
    Agrees (fileEvents id (fileHead mode statusCode contentType e.lenDecomp e.gzip newUrl) buf
      e.content) e.content e.gzip := by
  obtain ⟨hfield, hcoding⟩ :=
    fileHead_field mode statusCode contentType e.lenDecomp e.gzip newUrl
  refine ⟨_, ?_, by rw [hfield, hlen], hcoding⟩
  rw [response_fileEvents, flatten_sentChunks_id]

theorem agrees_refusal (mode : HttpdConnectionMode) :
    Agrees (textEvents (refusalHead mode) retMsg) retMsg false := by
  obtain ⟨hfield, hcoding⟩ :=
    fileHead_field mode 501 (ascii "text/plain") retMsg.length false none
  exact ⟨_, response_textEvents _ _, hfield, hcoding⟩

/-- A text is as long as its head says. -/
theorem response_pageText {files : List FsEntry} {page : Page}
    (hsel : selected files page.fileName = none) (mode : HttpdConnectionMode)
    (newUrl : Option (List UInt8)) :
    ∃ h, response (textEvents (pageHead files mode page newUrl) page.msg) = some (h, page.msg) ∧
      h.field httpContentLength = some (decimal page.msg.length) := by
  refine ⟨_, response_textEvents _ _, ?_⟩
  unfold pageHead
  rw [hsel]
  exact (fileHead_field mode page.statusCode (ascii "text/plain") page.msg.length true newUrl).1

/-- What comes out of a call that answers a request: it returns, and the events are as
expected. -/
def Answers (out : Except Fault ℤ × HttpState) (P : List HttpEvent → Prop) : Prop :=
  ∃ r, out.1 = .ok r ∧ P out.2.events

/-- The response is the built-in text and its head says how long it is. -/
def IsText (text : List UInt8) (evs : List HttpEvent) : Prop :=
  ∃ h, response evs = some (h, text) ∧ h.field httpContentLength = some (decimal text.length)

/-- A page without a file is answered by its text. -/
def TextAgrees (files : List FsEntry) (ae : List UInt8) (page : Page)
    (out : Except Fault ℤ × HttpState) : Prop :=
  selected files page.fileName = none → acceptsGzip ae = true → Answers out (IsText page.msg)

/-- A page with a compressed file is answered by another text for a client that does not accept
it. -/
def RefusalAgrees (files : List FsEntry) (ae : List UInt8) (page : Page)
    (out : Except Fault ℤ × HttpState) : Prop :=
  ∀ e, selected files page.fileName = some e → e.gzip = true → acceptsGzip ae = false →
    Answers out fun evs => Agrees evs retMsg false ∧
      ∃ h, response evs = some (h, retMsg) ∧ h.status = 501

/-- A page with a file, which the client accepts, is answered by its content. -/
def FileAgrees (files : List FsEntry) (ae : List UInt8) (page : Page)
    (out : Except Fault ℤ × HttpState) : Prop :=
  ∀ e, selected files page.fileName = some e → e.lenDecomp = e.content.length →
    (e.gzip = true → acceptsGzip ae = true) → Answers out (Agrees · e.content e.gzip)

section

variable {io : Io} (hio : io.Good) {files : List FsEntry} {s : HttpState} (hs : Serves s files)
  (hempty : s.events = []) {ae : List UInt8} (hae : StrAt s.conn.acceptEncoding 0 ae)
  {page : Page} (hpage : page.Html) {newUrl : Option (List UInt8)}
include hio hs hempty hae

theorem refusalAgrees_httpdSendPage :
    RefusalAgrees files ae page (exec (httpdSendPage io page newUrl) s) := by
  intro e hsel hgzip hrefused
  have hpageGzip : pageIsGzip files page = true := by
    unfold pageIsGzip
    rw [hsel]
    exact hgzip
  rw [exec_httpdSendPage_refused hio hs hae hpageGzip hrefused]
  refine ⟨_, rfl, ?_⟩
  rw [HttpState.push_events, hempty, List.nil_append]
  exact ⟨agrees_refusal _, _, response_textEvents _ _, rfl⟩

include hpage

theorem textAgrees_httpdSendPage
    (hfit : (pageHead files s.conn.connetionMode page newUrl).render.length < httpdCmdBufSize) :
    TextAgrees files ae page (exec (httpdSendPage io page newUrl) s) := by
  intro hsel haccepted
  obtain ⟨buf, -, hexec⟩ := exec_httpdSendPage hio hs hpage hae (fun _ => haccepted) hfit
  rw [hexec]
  refine ⟨_, rfl, ?_⟩
  rw [HttpState.push_events, hempty, List.nil_append, hsel]
  exact response_pageText hsel _ _

theorem fileAgrees_httpdSendPage (hsendLen : page.sendLen = id)
    (hfit : (pageHead files s.conn.connetionMode page newUrl).render.length < httpdCmdBufSize) :
    FileAgrees files ae page (exec (httpdSendPage io page newUrl) s) := by
  intro e hsel hlen haccepted
  have hpageGzip : pageIsGzip files page = e.gzip := by
    unfold pageIsGzip
    rw [hsel]
  obtain ⟨buf, -, hexec⟩ := exec_httpdSendPage hio hs hpage hae
    (fun h => haccepted (hpageGzip ▸ h)) hfit
  rw [hexec]
  refine ⟨_, rfl, ?_⟩
  rw [HttpState.push_events, hempty, List.nil_append, hsel, hsendLen, pageHead, hsel]
  exact agrees_fileEvents _ _ _ _ _ e hlen

end

/-- `HTTPd_NotFound` sends a file in whole buffers, and therefore always more than the file. -/
theorem length_body_notFound {io : Io} (hio : io.Good) {files : List FsEntry} {s : HttpState}
    (hs : Serves s files) (hempty : s.events = []) {ae : List UInt8}
    (hae : StrAt s.conn.acceptEncoding 0 ae) {e : FsEntry}
    (hsel : selected files notFoundPage.fileName = some e)
    (haccepted : e.gzip = true → acceptsGzip ae = true) :
    ∃ h body, response (exec (httpdNotFound io) s).2.events = some (h, body) ∧
      body.length = httpdDatBufSize * (e.content.length / httpdDatBufSize + 1) := by
  have hpageGzip : pageIsGzip files notFoundPage = e.gzip := by
    unfold pageIsGzip
    rw [hsel]
  have hfit : (pageHead files s.conn.connetionMode notFoundPage none).render.length <
      httpdCmdBufSize := by
    unfold pageHead
    rw [hsel]
    have := e.lenDecomp_lt
    exact fileHead_fits _ (by decide) (by decide) (by omega) _
  obtain ⟨buf, hbuf, hexec⟩ := exec_httpdSendPage hio hs notFoundPage_html hae
    (fun h => haccepted (hpageGzip ▸ h)) hfit
  unfold httpdNotFound
  rw [hexec, HttpState.push_events, hempty, List.nil_append, hsel]
  exact ⟨_, _, response_fileEvents _ _ _ _, length_flatten_sentChunks_full hbuf rfl⟩

/-- The head and the body of the three responses agree: a file whose record has one length is
sent as it is stored, under a head that gives its length and, if and only if it is flagged, its
encoding; a flagged page is replaced by a text for a client that does not accept gzip; and a
page without a file is its text. -/
theorem responses_agree {io : Io} (hio : io.Good) {files : List FsEntry} {s : HttpState}
    (hs : Serves s files) (hempty : s.events = []) {ae : List UInt8}
    (hae : StrAt s.conn.acceptEncoding 0 ae) :
    (∀ url u, s.conn.url = some url → StrAt s.urlMem url u → u ≠ [] →
      (selected files u = none → exec (httpdSendWebFile io) s = (.ok httpdCgiNotfound, s)) ∧
      ∀ e, selected files u = some e → e.lenDecomp = e.content.length →
        Answers (exec (httpdSendWebFile io) s) (Agrees · e.content e.gzip)) ∧
    (∀ newUrl, RefusalAgrees files ae redirectPage (exec (httpdRedirect io newUrl) s) ∧
      ((pageHead files s.conn.connetionMode redirectPage newUrl).render.length <
          httpdCmdBufSize →
        TextAgrees files ae redirectPage (exec (httpdRedirect io newUrl) s) ∧
          FileAgrees files ae redirectPage (exec (httpdRedirect io newUrl) s))) ∧
    RefusalAgrees files ae notFoundPage (exec (httpdNotFound io) s) ∧
      TextAgrees files ae notFoundPage (exec (httpdNotFound io) s) := by
  refine ⟨fun url u hurl hu hne => ?_, fun newUrl =>
    ⟨refusalAgrees_httpdSendPage hio hs hempty hae, fun hfit =>
      ⟨textAgrees_httpdSendPage hio hs hempty hae redirectPage_html hfit,
        fileAgrees_httpdSendPage hio hs hempty hae redirectPage_html rfl hfit⟩⟩,
    refusalAgrees_httpdSendPage hio hs hempty hae, fun hsel haccepted => ?_⟩
  · rcases exec_httpdSendWebFile hio hs hurl hu hne with
      ⟨hsel, hexec⟩ | ⟨e, ext, buf, hsel, hexec⟩
    · refine ⟨fun _ => hexec, fun e he => ?_⟩
      rw [hsel] at he
      cases he
    · refine ⟨fun hnone => ?_, fun e' he hlen => ?_⟩
      · rw [hsel] at hnone
        cases hnone
      · rw [hsel] at he
        cases he
        rw [hexec]
        refine ⟨_, rfl, ?_⟩
        rw [HttpState.push_events, hempty, List.nil_append]
        exact agrees_fileEvents _ _ _ _ _ e hlen
  · refine textAgrees_httpdSendPage hio hs hempty hae notFoundPage_html ?_ hsel haccepted
    unfold pageHead
    rw [hsel]
    exact fileHead_fits _ (by decide) (by decide) (by decide) _

/-- A server with these files, and a connection that asks for a URL. -/
def HttpState.serving (files : List FsEntry) (url : List UInt8) : HttpState where
  img := encodeImage files
  initDone := true
  conn := { Conn.fresh with url := some 0 }
  urlMem := url ++ [0]
  events := []

/-- A start page, a page for redirections, and a compressed page for missing files. -/
def someFiles : List FsEntry :=
  [{ name := ascii "index.html", content := ascii "hello", gzip := false, lenDecomp := 5,
     name_ne := by decide, nul_notMem := by decide, name_le := by decide,
     content_lt := by decide, lenDecomp_lt := by decide },
   { name := ascii "Redirect.html", content := ascii "elsewhere", gzip := false, lenDecomp := 9,
     name_ne := by decide, nul_notMem := by decide, name_le := by decide,
     content_lt := by decide, lenDecomp_lt := by decide },
   { name := ascii "NotFound.html", content := [31, 139], gzip := true, lenDecomp := 2,
     name_ne := by decide, nul_notMem := by decide, name_le := by decide,
     content_lt := by decide, lenDecomp_lt := by decide }]

/-- The three responses of a server to a client without an `Accept-Encoding` header. -/
theorem responses_agree_someFiles :
    Answers (exec (httpdSendWebFile Io.ideal) (.serving someFiles (ascii "/index.html")))
      (Agrees · (ascii "hello") false) ∧
    Answers (exec (httpdRedirect Io.ideal (some (ascii "/new")))
        (.serving someFiles (ascii "/index.html"))) (Agrees · (ascii "elsewhere") false) ∧
    Answers (exec (httpdNotFound Io.ideal) (.serving someFiles (ascii "/index.html")))
      fun evs => Agrees evs retMsg false ∧
        ∃ h, response evs = some (h, retMsg) ∧ h.status = 501 := by
  obtain ⟨hweb, hredirect, hrefusal, -⟩ := responses_agree Io.ideal_good
    (show Serves (.serving someFiles (ascii "/index.html")) someFiles from ⟨rfl, rfl⟩) rfl
    (show StrAt _ 0 [] from ⟨by decide, List.replicate 63 0, rfl⟩)
  refine ⟨(hweb 0 (ascii "/index.html") rfl ⟨by decide, [], rfl⟩ (by decide)).2
      (someFiles.get ⟨0, by decide⟩) (by rfl) rfl,
    ((hredirect (some (ascii "/new"))).2 (by decide +kernel)).2
      (someFiles.get ⟨1, by decide⟩) (by rfl) rfl (by decide),
    hrefusal (someFiles.get ⟨2, by decide⟩) (by rfl) rfl (by decide)⟩

/-- The response is the stored content of the file with this name, or else the text, and the
head says how long it is and whether it is a compressed file. -/
def HeaderAgrees (files : List FsEntry) (fileName text : List UInt8) (evs : List HttpEvent) :
    Prop :=
  match selected files fileName with
  | some e => Agrees evs e.content e.gzip
  | none => Agrees evs text false

/-- A client that does not accept gzip is sent a text in place of a compressed page. -/
theorem not_headerAgrees_refused :
    ¬ HeaderAgrees someFiles notFoundPage.fileName notFoundPage.msg
      (exec (httpdNotFound Io.ideal) (.serving someFiles (ascii "/missing"))).2.events := by
  intro h
  obtain ⟨hd, hresponse, -, -⟩ : Agrees _ [31, 139] true := h
  have hbody : (response (exec (httpdNotFound Io.ideal)
      (.serving someFiles (ascii "/missing"))).2.events).map Prod.snd = some retMsg := by
    decide +kernel
  rw [hresponse] at hbody
  exact absurd (Option.some.inj hbody) (show ¬ ([31, 139] : List UInt8) = retMsg by decide +kernel)

end WLink.Httpd
