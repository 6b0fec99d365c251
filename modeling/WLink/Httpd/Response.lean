import WLink.Httpd.Head
import WLink.NeonRtFs.Read

/-!
# Sending responses

The functions of `HTTPd.c` that answer a request. What they do to the outside is a list of
events, the calls of `send` with their results among them; what comes back from the outside, a
block of memory or the number of bytes that were sent, is decided by an `Io`, which may let it
depend on everything that has happened before.

* `httpSendHeader` -- the head of a file or of a built-in text
* `httpdSendWebFile` -- the file that the URL names
* `httpdRedirect`, `httpdNotFound` -- the pages that the server has on its own account
* `httpdSendCgiResponse` -- what callbacks answer with
-/

namespace WLink.Httpd

open WLink.Lib CString NeonRtFs

/-! ## Events -/

inductive HttpEvent
  /-- `send` of a response head, and its result. -/
  | head (h : Head) (status : ℤ)
  /-- `send` of other bytes, and its result. -/
  | body (bs : List UInt8) (status : ℤ)
  /-- The call of a CGI callback. -/
  | call (cgi : ℕ)
deriving DecidableEq, Repr

/-- What the calls outside of the server come to, after the events so far. -/
structure Io where
  /-- `mem_Malloc` of so many bytes: a block with its old contents, or `NULL`. -/
  malloc : List HttpEvent → ℕ → Option (List UInt8)
  /-- `send` of some bytes. -/
  send : List HttpEvent → List UInt8 → ℤ

/-- `send` accepts everything and `mem_Malloc` succeeds. -/
structure Io.Good (io : Io) : Prop where
  malloc : ∀ evs n, ∃ block, io.malloc evs n = some block ∧ block.length = n
  send : ∀ evs bs, io.send evs bs = bs.length

/-- An outside that never fails and whose memory is zero. -/
def Io.ideal : Io where
  malloc _ n := some (List.replicate n 0)
  send _ bs := bs.length

theorem Io.ideal_good : Io.ideal.Good where
  malloc _ n := ⟨List.replicate n 0, rfl, List.length_replicate⟩
  send _ _ := rfl

/-- What the functions work on: the file system, the connection, the object that its `url`
points into, and the events so far. -/
structure HttpState where
  img : List UInt8
  initDone : Bool
  conn : Conn
  urlMem : List UInt8
  events : List HttpEvent

abbrev Http := Exec HttpState

def setHttpConn (f : Conn → Conn) : Http Unit := Exec.update fun s => { s with conn := f s.conn }

/-- Add an event. -/
def log (ev : HttpEvent) : Http Unit := Exec.update fun s => { s with events := s.events ++ [ev] }

def memMalloc (io : Io) (size : ℕ) : Http (Option (List UInt8)) :=
  Exec.view fun s => io.malloc s.events size

/-- Write a head, and the NUL that `sprintf` puts behind it, into a buffer. -/
def writeHead (size : ℕ) (h : Head) : Http Unit :=
  Exec.lift (if h.render.length < size then .ok () else .error .write)

def sendHead (io : Io) (h : Head) : Http ℤ := do
  let socketStatus ← Exec.view fun s => io.send s.events h.render
  log (.head h socketStatus)
  pure socketStatus

def sendBody (io : Io) (bs : List UInt8) : Http ℤ := do
  let socketStatus ← Exec.view fun s => io.send s.events bs
  log (.body bs socketStatus)
  pure socketStatus

/-! ## Heads -/

def httpServerField : List UInt8 × List UInt8 := (httpServer, ascii "NeonRT - httpd / 1.1")

/-- The fields that depend on the connection mode. -/
def connectionFields : HttpdConnectionMode → List (List UInt8 × List UInt8)
  | .close => [(httpConnection, httpClose)]
  | .keepAlive => [(httpConnection, httpKeepAlive), (httpKeepAlive, ascii "timeout=5, max=1")]
  | .upgrade => [(httpConnection, httpUpgrade)]

/-- The field for `pNewUrl`. -/
def locationFields : Option (List UInt8) → List (List UInt8 × List UInt8)
  | some newUrl => [(httpLocation, newUrl)]
  | none => []

/-- The head that `HTTP_SendHeader` puts together. -/
def fileHead (mode : HttpdConnectionMode) (statusCode : ℕ) (contentType : List UInt8)
    (contentLength : ℤ) (isGzip : Bool) (newUrl : Option (List UInt8)) : Head where
  status := statusCode
  fields :=
    httpServerField :: connectionFields mode ++ locationFields newUrl ++
      [(httpContentType, contentType), (httpContentLength, sprintfD contentLength)] ++
      if isGzip then [(httpContentEncoding, ascii "gzip")] else []

/-- `HTTP_SendHeader`. -/
def httpSendHeader (io : Io) (statusCode : ℕ) (contentType : List UInt8) (contentLength : ℤ)
    (isGzip : Bool) (newUrl : Option (List UInt8)) : Http ℤ := do
  match ← memMalloc io httpdCmdBufSize with
  | none => pure httpdCgiDone
  | some _ =>
    let conn ← Exec.view (·.conn)
    let h := fileHead conn.connetionMode statusCode contentType contentLength isGzip newUrl
    writeHead httpdCmdBufSize h
    let socketStatus ← sendHead io h
    if socketStatus < 0 then pure httpdCgiDone else pure httpdCgiMore

/-! ## Files -/

def sizeofNeonRtFsFile : ℕ := 36

def openFile (io : Io) (fileName : List UInt8) : Http (Option NeonRtFsFile) :=
  ExceptT.mk fun s =>
    match neonRtFsOpen s.img s.initDone (io.malloc s.events sizeofNeonRtFsFile).isSome fileName with
    | .ok (fh, initDone) => (.ok fh, { s with initDone := initDone })
    | .error e => (.error e, s)

/-- The `do … while` loop that sends a file, with a bound on its rounds. Of a buffer into which
`n` bytes have been read `sendLen n` bytes are sent. -/
def sendLoop (io : Io) (sendLen : ℕ → ℕ) : ℕ → NeonRtFsFile → List UInt8 → Http Unit
  | 0, _, _ => Exec.lift (.error .hang)
  | fuel + 1, fh, buf => do
    let img ← Exec.view (·.img)
    let (bs, fh) ← Exec.lift (neonRtFsRead img fh httpdDatBufSize)
    let buf := bs ++ buf.drop bs.length
    let socketStatus ← sendBody io (buf.take (sendLen bs.length))
    if 0 < socketStatus ∧ httpdDatBufSize ≤ bs.length then sendLoop io sendLen fuel fh buf
    else pure ()

/-- Send a file through a buffer, if there is memory for one. -/
def sendFile (io : Io) (sendLen : ℕ → ℕ) (fh : NeonRtFsFile) : Http Unit := do
  match ← memMalloc io httpdDatBufSize with
  | none => pure ()
  | some buf =>
    let img ← Exec.view (·.img)
    sendLoop io sendLen (img.length + 1) fh buf

/-- `HTTPd_SendWebFile`. -/
def httpdSendWebFile (io : Io) : Http ℤ := do
  let s ← Exec.view id
  match s.conn.url with
  | none => pure httpdCgiDone
  | some url =>
    let contentType ← Exec.lift (getMimetype s.urlMem url)
    let fileName ← Exec.lift (cstring s.urlMem url)
    match ← openFile io fileName with
    | none => pure httpdCgiNotfound
    | some fh =>
      let isGzip := hasFlag (neonRtFsFlags (some fh)) flagGzip
      let r ← httpSendHeader io 200 contentType fh.header.fileLenDecomp isGzip none
      if r ≠ httpdCgiMore then pure httpdCgiDone
      else
        sendFile io id fh
        pure httpdCgiDone

/-! ## Pages of the server -/

/-- What `HTTPd_Redirect` and `HTTPd_NotFound` differ in. -/
structure Page where
  fileName : List UInt8
  /-- The text for an image without the file. -/
  msg : List UInt8
  statusCode : ℕ
  /-- How many bytes are sent of a buffer into which so many have been read. -/
  sendLen : ℕ → ℕ

def retMsg : List UInt8 := ascii "Your browser does not accept gzip-compressed data.\r\n"

/-- The mime type of a page. -/
def pageContentType (page : Page) : Option NeonRtFsFile → Except Fault (List UInt8)
  | some _ => getMimetype (page.fileName ++ [0]) 0
  | none => .ok (ascii "text/plain")

/-- `content_len` of a page. -/
def pageContentLen (page : Page) : Option NeonRtFsFile → ℤ
  | some fh => fh.header.fileLenDecomp
  | none => page.msg.length

/-- The content of a page: its file or else its text. -/
def sendPageBody (io : Io) (page : Page) : Option NeonRtFsFile → Http Unit
  | some fh => sendFile io page.sendLen fh
  | none => do
    let _socketStatus ← sendBody io page.msg
    pure ()

/-- `isGzip` and the client accepts no such file. -/
def refusesGzip (isGzip : Bool) (acceptEncoding : List UInt8) : Except Fault Bool := do
  if isGzip then
    let accepted ← strstr acceptEncoding 0 (ascii "gzip")
    pure accepted.isNone
  else pure false

/-- `HTTPd_Redirect` and `HTTPd_NotFound`. -/
def httpdSendPage (io : Io) (page : Page) (newUrl : Option (List UInt8)) : Http ℤ := do
  let file ← openFile io page.fileName
  let isGzip := hasFlag (neonRtFsFlags file) flagGzip
  let conn ← Exec.view (·.conn)
  if ← Exec.lift (refusesGzip isGzip conn.acceptEncoding) then
    let r ← httpSendHeader io 501 (ascii "text/plain") retMsg.length false none
    if r ≠ httpdCgiMore then pure httpdCgiDone
    else
      let _socketStatus ← sendBody io retMsg
      pure httpdCgiDone
  else
    let contentType ← Exec.lift (pageContentType page file)
    let r ← httpSendHeader io page.statusCode contentType (pageContentLen page file) isGzip newUrl
    if r ≠ httpdCgiMore then pure httpdCgiDone
    else
      sendPageBody io page file
      pure httpdCgiDone

def redirectPage : Page where
  fileName := ascii "Redirect.html"
  msg := ascii "Redirecting\r\n"
  statusCode := 302
  sendLen := id

/-- Of every buffer all bytes are sent, however many have been read into it. -/
def notFoundPage : Page where
  fileName := ascii "NotFound.html"
  msg := ascii "Not Found.\r\n"
  statusCode := 404
  sendLen := fun _ => httpdDatBufSize

/-- `HTTPd_Redirect`. -/
def httpdRedirect (io : Io) (newUrl : Option (List UInt8)) : Http ℤ :=
  httpdSendPage io redirectPage newUrl

/-- `HTTPd_NotFound`. -/
def httpdNotFound (io : Io) : Http ℤ := httpdSendPage io notFoundPage none

/-! ## Answers of callbacks -/

/-- The head that `HTTPd_Send_CGI_Response` puts together. -/
def cgiHead (mode : HttpdConnectionMode) (statusCode : ℕ) (rspType : List UInt8) : Head where
  status := statusCode
  fields :=
    httpServerField :: connectionFields mode ++
      [(httpContentType, mimeOf rspType), (ascii "Access-Control-Allow-Origin", ascii "*")]

/-- `HTTPd_Send_CGI_Response`. -/
def httpdSendCgiResponse (io : Io) (statusCode : ℕ) (rspType rspData : List UInt8) : Http ℤ := do
  match ← memMalloc io httpdCmdBufSize with
  | none => pure httpdCgiDone
  | some _ =>
    let conn ← Exec.view (·.conn)
    let h := cgiHead conn.connetionMode statusCode rspType
    writeHead httpdCmdBufSize h
    let socketStatus ← sendHead io h
    if socketStatus < 0 then pure httpdCgiDone
    else if 0 < rspData.length then
      let _socketStatus ← sendBody io rspData
      pure httpdCgiDone
    else pure httpdCgiDone

end WLink.Httpd
