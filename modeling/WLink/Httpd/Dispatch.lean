import WLink.Httpd.Response
import WLink.Misc.Base64
import WLink.Misc.Sha1

/-!
# Dispatching a request

What `HTTP_Server_Task` does with a request whose head has been parsed and whose body has been
received: find the callback for the URL, run it or send a file, and make the connection ready
for the next request or for its end. A callback is a computation of the server's own kind; the
tables name it by a number.

* `isMatchCgi` -- the callback for a URL
* `httpdProcessPostRequest`, …, `httpdProcessDeleteRequest` -- one function for each method
* `dispatch` -- the part of `HTTP_Server_Task` that calls them
-/

namespace WLink.Httpd

open WLink.Lib CString

/-! ## URL tables -/

/-- `HttpdBuiltInUrl` and `HttpdDynamicUrlItem`. -/
structure UrlItem where
  url : List UInt8
  cgiCb : ℕ
deriving DecidableEq, Repr

/-- `builtInUrls` and `Registered_URL_List`. -/
structure UrlTables where
  builtInUrls : List UrlItem
  registeredUrlList : List UrlItem
deriving DecidableEq, Repr

/-- The comparison of a table's URL with the requested one: literally, or up to a final star,
and in both cases with the same length. -/
def UrlItem.isMatch (item : UrlItem) (url : List UInt8) : Bool :=
  item.url.length = url.length &&
    (item.url = url ||
      item.url.getLast? = some 42 &&
        item.url.take (item.url.length - 1) = url.take (item.url.length - 1))

/-- The loop over one table. -/
def searchUrls (table : List UrlItem) (url : List UInt8) : Http Bool :=
  match table.find? (·.isMatch url) with
  | some item => do
    setHttpConn fun c => { c with cgi := some item.cgiCb }
    pure true
  | none => pure false

/-- `HTTPd_isMatch_CGI`. -/
def isMatchCgi (urls : UrlTables) : Http Bool := do
  let s ← Exec.view id
  match s.conn.url with
  | none => pure false
  | some url =>
    let u ← Exec.lift (cstring s.urlMem url)
    let isBuiltIn ← searchUrls urls.builtInUrls u
    let isRegistered ← searchUrls urls.registeredUrlList u
    pure (isBuiltIn || isRegistered)

/-! ## Callbacks -/

/-- The callbacks that the numbers in the tables stand for. -/
abbrev Handlers := ℕ → Http ℤ

/-- `connData->cgi(connData)`. -/
def callCgi (handlers : Handlers) : Http ℤ := do
  match ← Exec.view (·.conn.cgi) with
  | none => Exec.lift (.error .read)
  | some cgi =>
    log (.call cgi)
    handlers cgi

def clearCgi : Http Unit := setHttpConn fun c => { c with cgi := none }

/-- Run the callback, forget it, and answer in its place if it finds nothing. -/
def runCgi (io : Io) (handlers : Handlers) : Http ℤ := do
  let r ← callCgi handlers
  clearCgi
  if r = httpdCgiNotfound then httpdNotFound io else pure r

/-! ## Methods -/

/-- `setsockopt` for an `int`: lwIP refuses an option that is shorter than its type. -/
def setsockopt (optlen : ℕ) : ℤ := if optlen < 4 then -1 else 0

/-- `sizeof(recvBlockTime) < 0`, which is the length that the calls of `setsockopt` give. -/
def optlenGiven : ℕ := if 4 < 0 then 1 else 0

/-- `HTTPd_Process_POST_Request`. -/
def httpdProcessPostRequest (io : Io) (urls : UrlTables) (handlers : Handlers) : Http ℤ := do
  if ← isMatchCgi urls then
    if setsockopt optlenGiven ≠ 0 then pure httpdCgiDone
    else
      let r ← callCgi handlers
      clearCgi
      if setsockopt optlenGiven ≠ 0 then pure httpdCgiDone
      else if r = httpdCgiNotfound then
        let _r ← httpdNotFound io
        pure httpdCgiDone
      else pure httpdCgiDone
  else
    let _r ← httpdNotFound io
    pure httpdCgiDone

/-- `WebSocketServer_CreateAcceptKey`: Base64 of the SHA-1 of the key with the UUID, put together
in a buffer of 512 bytes. -/
def acceptKeyOf (key : List UInt8) : Except Fault (List UInt8) :=
  if 512 ≤ key.length + webSocketUuid.length then .error .write
  else
    match Misc.base64Encode 100
        (Misc.sha1Result (Misc.sha1Write (Misc.sha1Init (Vector.replicate 16 0))
          (key ++ webSocketUuid))) with
    | some acceptKey => .ok acceptKey
    | none => .error .read

def wsServerCmdBufSize : ℕ := 1024

/-- The answer to a WebSocket handshake. -/
def upgradeHead (acceptKey : List UInt8) : Head where
  status := 101
  fields :=
    [(httpUpgrade, webSocketIdentifierUpper), (httpConnection, httpUpgrade),
      (webSocketAcceptIdentifier, acceptKey)]

/-- The handshake in `HTTPd_Process_GET_Request`. The key lies in the head, as the URL does. -/
def acceptWebsocket (io : Io) : Http ℤ := do
  match ← memMalloc io 100 with
  | none => pure httpdCgiDone
  | some _ =>
    let s ← Exec.view id
    match s.conn.clientKey with
    | none => Exec.lift (.error .read)
    | some clientKey =>
      let key ← Exec.lift (cstring s.urlMem clientKey)
      let acceptKey ← Exec.lift (acceptKeyOf key)
      match ← memMalloc io wsServerCmdBufSize with
      | none => pure httpdCgiDone
      | some _ =>
        writeHead wsServerCmdBufSize (upgradeHead acceptKey)
        let _socketStatus ← sendHead io (upgradeHead acceptKey)
        setHttpConn fun c => { c with websocketAuth := true }
        pure httpdCgiMore

/-- A URL without a callback: the start page for `/`, else the file that it names. -/
def sendUrl (io : Io) : Http ℤ := do
  let s ← Exec.view id
  match s.conn.url with
  | none => Exec.lift (.error .read)
  | some url =>
    let u ← Exec.lift (cstring s.urlMem url)
    if u = ascii "/" then
      Exec.update fun s =>
        { s with urlMem := ascii "index.html" ++ [0], conn := { s.conn with url := some 0 } }
      httpdSendWebFile io
    else
      let r ← httpdSendWebFile io
      if r = httpdCgiNotfound then httpdNotFound io else pure r

/-- `HTTPd_Process_GET_Request`. -/
def httpdProcessGetRequest (io : Io) (urls : UrlTables) (handlers : Handlers) : Http ℤ := do
  if ← Exec.view (·.conn.websocketClient) then acceptWebsocket io
  else
    if ← isMatchCgi urls then
      let _r ← runCgi io handlers
      pure httpdCgiDone
    else
      let _r ← sendUrl io
      pure httpdCgiDone

/-- `HTTPd_Process_PUT_Request`. -/
def httpdProcessPutRequest (io : Io) (urls : UrlTables) (handlers : Handlers) : Http ℤ := do
  if ← isMatchCgi urls then
    let _r ← runCgi io handlers
    clearCgi
    pure httpdCgiDone
  else
    let _r ← httpdNotFound io
    clearCgi
    pure httpdCgiDone

/-- `HTTPd_Process_DELETE_Request`, which is the same. -/
def httpdProcessDeleteRequest (io : Io) (urls : UrlTables) (handlers : Handlers) : Http ℤ :=
  httpdProcessPutRequest io urls handlers

/-! ## The server task -/

/-- The `switch` over the request type. A `POST` or `PUT` without a body is passed over. -/
def processRequest (io : Io) (urls : UrlTables) (handlers : Handlers) : Http ℤ := do
  let c ← Exec.view (·.conn)
  match c.requestType with
  | .post => if 0 < c.dataLen then httpdProcessPostRequest io urls handlers else pure httpdCgiDone
  | .get => httpdProcessGetRequest io urls handlers
  | .put => if 0 < c.dataLen then httpdProcessPutRequest io urls handlers else pure httpdCgiDone
  | .delete => httpdProcessDeleteRequest io urls handlers
  | .unknown => pure httpdCgiDone

/-- The callback that is still there behind the `switch` is run, and its result only logged. -/
def runLeftCgi (handlers : Handlers) : Http Unit := do
  let c ← Exec.view (·.conn)
  if c.url.isSome ∧ c.cgi.isSome then
    let _ret ← callCgi handlers
    pure ()
  else pure ()

/-- The end of a request: free the body, and mark a connection that is done. -/
def endRequest (r : ℤ) : Http Unit := do
  setHttpConn fun c =>
    if c.dataBuff.isSome then { c with isLargeData := false, dataBuff := none } else c
  if r = httpdCgiDone then
    setHttpConn fun c => { c.timerStop with connectionDestructFlag := true }
  else pure ()

/-- What the task does with a request that has been received. -/
def dispatch (io : Io) (urls : UrlTables) (handlers : Handlers) : Http Unit := do
  let r ← processRequest io urls handlers
  runLeftCgi handlers
  endRequest r

end WLink.Httpd
