import WLink.Lib.Ownership
import WLink.Httpd.Response

/-!
# The memory of the pages

The functions of `Httpd.Response` that send files and pages once more, with the blocks that they
allocate: the buffer for a head, the record of an open file and the buffer for its content. Which
allocation succeeds is decided by the `Io`, as it is there, and without the blocks the functions
are the same (`refines_httpdSendWebFileMem`, `refines_httpdSendPageMem`).

`HTTPd_SendWebFile` gives back all it has allocated if the search for the file ends
(`httpdSendWebFileMem_iff`). `HTTPd_Redirect` and `HTTPd_NotFound` forget to close their file if
they cannot send the head of the answer to a client that accepts no compressed files
(`httpdSendPageMem_iff`).
-/

namespace WLink.Httpd

open WLink.Lib CString NeonRtFs Exec

/-! ## The functions with the heap -/

/-- `mem_Malloc`: the block and its old contents. -/
def mallocBlock (io : Io) (size : ℕ) : HeapM HttpState (Option (ℕ × List UInt8)) := do
  let old ← onBase (memMalloc io size)
  let b ← alloc fun _ => old.isSome
  pure (b.bind fun b => old.map fun old => (b, old))

/-- `HTTP_SendHeader` -/
def httpSendHeaderMem (io : Io) (statusCode : ℕ) (contentType : List UInt8) (contentLength : ℤ)
    (isGzip : Bool) (newUrl : Option (List UInt8)) : HeapM HttpState ℤ := do
  match ← mallocBlock io httpdCmdBufSize with
  | none => pure httpdCgiDone
  | some (httpCmdBuf, _) =>
    let conn ← onBase (Exec.view (·.conn))
    let h := fileHead conn.connetionMode statusCode contentType contentLength isGzip newUrl
    onBase (writeHead httpdCmdBufSize h)
    let socketStatus ← onBase (sendHead io h)
    release httpCmdBuf
    if socketStatus < 0 then pure httpdCgiDone else pure httpdCgiMore

/-- A file record and its block. -/
abbrev FileBlock := NeonRtFsFile × ℕ

/-- The record for a file of `NeonRtFsOpen`, which is freed if the compression is unknown. -/
def openRecordMem (io : Io) (h : Header) (p : ℤ) : HeapM HttpState (Option FileBlock) := do
  match ← mallocBlock io sizeofNeonRtFsFile with
  | none => pure none
  | some (r, _) =>
    if h.compression = compressNone then pure (some (⟨h, h.compression, 0, p, p⟩, r))
    else
      release r
      pure none

/-- The `while (1)` of `NeonRtFsOpen`, with a bound on its rounds. -/
def openLoopMem (io : Io) (img fileName : List UInt8) :
    ℕ → ℤ → HeapM HttpState (Option FileBlock)
  | 0, _ => Exec.lift (.error .hang)
  | fuel + 1, p => do
    let h ← Exec.lift (readHeader img p)
    let p := p + headerSize
    if h.magic ≠ neonrtfsMagic then
      onBase (Exec.update fun s => { s with initDone := false })
      pure none
    else if hasFlag h.flags flagLastfile then pure none
    else
      let name ← Exec.lift (readName img p h.nameLen)
      if sameStart name fileName then openRecordMem io h (p + h.nameLen)
      else openLoopMem io img fileName fuel (align4 (p + (h.nameLen + h.fileLenComp)))

/-- `NeonRtFsOpen` -/
def openFileMem (io : Io) (fileName : List UInt8) : HeapM HttpState (Option FileBlock) := do
  let s ← onBase (Exec.view id)
  if s.initDone = false then pure none
  else openLoopMem io s.img (stripSlashes fileName) (s.img.length + 1) 0

/-- `NeonRtFsClose` -/
def closeFile : Option FileBlock → HeapM HttpState Unit
  | none => pure ()
  | some fh => release fh.2

/-- Send a file through a buffer, if there is memory for one. -/
def sendFileMem (io : Io) (sendLen : ℕ → ℕ) (fh : NeonRtFsFile) : HeapM HttpState Unit := do
  match ← mallocBlock io httpdDatBufSize with
  | none => pure ()
  | some (webSendBuf, buf) =>
    let img ← onBase (Exec.view (·.img))
    onBase (sendLoop io sendLen (img.length + 1) fh buf)
    release webSendBuf

/-- What `HTTPd_SendWebFile` does with the file that it has opened. -/
def serveFileMem (io : Io) (contentType : List UInt8) : Option FileBlock → HeapM HttpState ℤ
  | none => pure httpdCgiNotfound
  | some file => do
    let isGzip := hasFlag (neonRtFsFlags (some file.1)) flagGzip
    let r ← httpSendHeaderMem io 200 contentType file.1.header.fileLenDecomp isGzip none
    if r ≠ httpdCgiMore then
      closeFile (some file)
      pure httpdCgiDone
    else
      sendFileMem io id file.1
      closeFile (some file)
      pure httpdCgiDone

/-- `HTTPd_SendWebFile` -/
def httpdSendWebFileMem (io : Io) : HeapM HttpState ℤ := do
  let s ← onBase (Exec.view id)
  match s.conn.url with
  | none => pure httpdCgiDone
  | some url =>
    let contentType ← Exec.lift (getMimetype s.urlMem url)
    let fileName ← Exec.lift (cstring s.urlMem url)
    openFileMem io fileName >>= serveFileMem io contentType

/-- The answer to a client that accepts no compressed files. -/
def refuseGzipMem (io : Io) (file : Option FileBlock) : HeapM HttpState ℤ := do
  let r ← httpSendHeaderMem io 501 (ascii "text/plain") retMsg.length false none
  -- `return HTTPD_CGI_DONE` without `NeonRtFsClose`
  if r ≠ httpdCgiMore then pure httpdCgiDone
  else
    let _socketStatus ← onBase (sendBody io retMsg)
    closeFile file
    pure httpdCgiDone

/-- The content of a page, and the end of its file. -/
def sendPageBodyMem (io : Io) (page : Page) : Option FileBlock → HeapM HttpState Unit
  | some file => do
    sendFileMem io page.sendLen file.1
    closeFile (some file)
  | none => do
    let _socketStatus ← onBase (sendBody io page.msg)
    pure ()

/-- What `HTTPd_Redirect` and `HTTPd_NotFound` do with the file that they have opened. -/
def servePageMem (io : Io) (page : Page) (newUrl : Option (List UInt8)) (file : Option FileBlock) :
    HeapM HttpState ℤ := do
  let fh := file.map Prod.fst
  let isGzip := hasFlag (neonRtFsFlags fh) flagGzip
  let conn ← onBase (Exec.view (·.conn))
  if ← Exec.lift (refusesGzip isGzip conn.acceptEncoding) then refuseGzipMem io file
  else
    let contentType ← Exec.lift (pageContentType page fh)
    let r ← httpSendHeaderMem io page.statusCode contentType (pageContentLen page fh) isGzip newUrl
    if r ≠ httpdCgiMore then
      closeFile file
      pure httpdCgiDone
    else
      sendPageBodyMem io page file
      pure httpdCgiDone

/-- `HTTPd_Redirect` and `HTTPd_NotFound` -/
def httpdSendPageMem (io : Io) (page : Page) (newUrl : Option (List UInt8)) : HeapM HttpState ℤ :=
  openFileMem io page.fileName >>= servePageMem io page newUrl

/-! ## The functions without the heap -/

section

variable (io : Io)

theorem ok_bind {α β : Type} (a : α) (f : α → Except Fault β) : (.ok a >>= f) = f a := rfl

theorem refines_mallocBlock (size : ℕ) :
    Refines (Option.map Prod.snd) (mallocBlock io size) (memMalloc io size) := by
  intro s
  unfold mallocBlock memMalloc
  rw [exec_bind, exec_onBase, exec_view]
  dsimp only
  rw [exec_bind, exec_alloc]
  cases io.malloc s.base.events size <;> rfl

theorem refines_httpSendHeaderMem (statusCode : ℕ) (contentType : List UInt8) (contentLength : ℤ)
    (isGzip : Bool) (newUrl : Option (List UInt8)) :
    Refines id (httpSendHeaderMem io statusCode contentType contentLength isGzip newUrl)
      (httpSendHeader io statusCode contentType contentLength isGzip newUrl) := by
  refine (refines_mallocBlock io _).bind fun block => ?_
  cases block with
  | none => exact Refines.pure rfl
  | some block =>
    refine (Refines.onBase _).bind fun conn => (Refines.onBase _).bind fun _ =>
      (Refines.onBase _).bind fun socketStatus => Refines.release ?_
    exact Refines.ite (Refines.pure rfl) (Refines.pure rfl)

theorem exec_openRecordMem (h : Header) (p : ℤ) (s : Heaped HttpState) :
    ((exec (openRecordMem io h p) s).1.map (Option.map Prod.fst),
        (exec (openRecordMem io h p) s).2.base) =
      (.ok (openRecord h p (io.malloc s.base.events sizeofNeonRtFsFile).isSome), s.base) := by
  have hmalloc := refines_mallocBlock io sizeofNeonRtFsFile s
  unfold memMalloc at hmalloc
  rw [exec_view] at hmalloc
  unfold openRecordMem openRecord
  rw [exec_bind]
  rcases hexec : exec (mallocBlock io sizeofNeonRtFsFile) s with ⟨e | block, s'⟩
  · rw [hexec] at hmalloc
    cases congrArg Prod.fst hmalloc
  · rw [hexec] at hmalloc
    obtain ⟨hblock, hbase⟩ := Prod.mk.inj hmalloc
    have hbase' : s'.base = s.base := hbase
    rw [← Except.ok.inj hblock]
    cases block with
    | none => exact Prod.ext rfl hbase
    | some block =>
      obtain ⟨r, buf⟩ := block
      by_cases hcompr : h.compression = compressNone
      · rw [if_pos hcompr]
        dsimp only
        rw [if_pos hcompr]
        exact Prod.ext rfl hbase
      · rw [if_neg hcompr]
        dsimp only
        rw [if_neg hcompr]
        exact Prod.ext rfl hbase

/-- The search for a file with the heap is that without, which does not look at the events. -/
theorem exec_openLoopMem (img fileName : List UInt8) (fuel : ℕ) (p : ℤ) (s : Heaped HttpState)
    (hinit : s.base.initDone = true) :
    ((exec (openLoopMem io img fileName fuel p) s).1.map (Option.map Prod.fst),
        (exec (openLoopMem io img fileName fuel p) s).2.base) =
      match openLoop img fileName (io.malloc s.base.events sizeofNeonRtFsFile).isSome fuel p with
      | .ok (fh, initDone) => (.ok fh, { s.base with initDone := initDone })
      | .error e => (.error e, s.base) := by
  have hsame : ({ s.base with initDone := true } : HttpState) = s.base := by
    rw [← hinit]
  induction fuel generalizing p with
  | zero => rfl
  | succ fuel ih =>
    unfold openLoopMem openLoop
    rw [exec_bind, exec_lift]
    rcases readHeader img p with e | h
    · rfl
    rw [ok_bind]
    dsimp only
    by_cases hmagic : h.magic ≠ neonrtfsMagic
    · rw [if_pos hmagic, if_pos hmagic]
      rfl
    rw [if_neg hmagic, if_neg hmagic]
    by_cases hlast : hasFlag h.flags flagLastfile = true
    · rw [if_pos hlast, if_pos hlast]
      show (_, s.base) = (_, { s.base with initDone := true })
      rw [hsame]
      rfl
    rw [if_neg hlast, if_neg hlast, exec_bind, exec_lift]
    rcases readName img (p + headerSize) h.nameLen with e | name
    · rfl
    rw [ok_bind]
    dsimp only
    by_cases hname : sameStart name fileName = true
    · rw [if_pos hname, if_pos hname, exec_openRecordMem]
      show _ = (_, { s.base with initDone := true })
      rw [hsame]
    · rw [if_neg hname, if_neg hname]
      exact ih _

theorem refines_openFileMem (fileName : List UInt8) :
    Refines (Option.map Prod.fst) (openFileMem io fileName) (openFile io fileName) := by
  intro s
  unfold openFileMem openFile neonRtFsOpen
  rw [exec_bind, exec_onBase, exec_view, exec_mk]
  dsimp only [id]
  cases hinit : s.base.initDone with
  | false =>
    refine Prod.ext rfl ?_
    show s.base = { s.base with initDone := false }
    rw [← hinit]
  | true => exact exec_openLoopMem io _ _ _ _ s hinit

theorem refines_closeFile {α : Type} {g : ℤ → α} {f : Unit → HeapM HttpState ℤ} {y : Http α}
    (file : Option FileBlock) (hf : Refines g (f ()) y) : Refines g (closeFile file >>= f) y := by
  cases file with
  | none => exact hf
  | some fh => exact Refines.release hf

/-- A block that is freed in the end. -/
theorem refines_thenRelease {x : HeapM HttpState Unit} {y : Http Unit} (h : Refines id x y)
    (b : ℕ) : Refines id (x >>= fun _ => release b) y := by
  rw [← bind_pure y]
  exact h.bind fun _ _ => rfl

theorem refines_sendFileMem (sendLen : ℕ → ℕ) (fh : NeonRtFsFile) :
    Refines id (sendFileMem io sendLen fh) (sendFile io sendLen fh) := by
  refine (refines_mallocBlock io _).bind fun block => ?_
  cases block with
  | none => exact Refines.pure rfl
  | some block =>
    refine (Refines.onBase _).bind fun img => ?_
    exact refines_thenRelease (Refines.onBase _) _

theorem refines_sendPageBodyMem (page : Page) (file : Option FileBlock) :
    Refines id (sendPageBodyMem io page file) (sendPageBody io page (file.map Prod.fst)) := by
  cases file with
  | none => exact (Refines.onBase _).bind fun _ => Refines.pure rfl
  | some file => exact refines_thenRelease (refines_sendFileMem io _ _) _

/-- Without the heap, `HTTPd_SendWebFile` is that of `Httpd.Response`. -/
theorem refines_httpdSendWebFileMem :
    Refines id (httpdSendWebFileMem io) (httpdSendWebFile io) := by
  refine (Refines.onBase _).bind fun s => ?_
  dsimp only [id]
  cases s.conn.url with
  | none => exact Refines.pure rfl
  | some url =>
    refine (Refines.lift _).bind fun contentType => (Refines.lift _).bind fun fileName => ?_
    refine (refines_openFileMem io fileName).bind fun file => ?_
    cases file with
    | none => exact Refines.pure rfl
    | some file =>
      refine (refines_httpSendHeaderMem io _ _ _ _ _).bind fun r => ?_
      refine Refines.ite (refines_closeFile _ (Refines.pure rfl)) ?_
      exact (refines_sendFileMem io _ _).bind fun _ => refines_closeFile _ (Refines.pure rfl)

/-- Without the heap, `HTTPd_Redirect` and `HTTPd_NotFound` are those of `Httpd.Response`. -/
theorem refines_httpdSendPageMem (page : Page) (newUrl : Option (List UInt8)) :
    Refines id (httpdSendPageMem io page newUrl) (httpdSendPage io page newUrl) := by
  refine (refines_openFileMem io page.fileName).bind fun file => ?_
  refine (Refines.onBase _).bind fun conn => (Refines.lift _).bind fun refused => ?_
  refine Refines.ite ?_ ?_
  · refine (refines_httpSendHeaderMem io _ _ _ _ _).bind fun r => ?_
    refine Refines.ite (Refines.pure rfl) ?_
    exact (Refines.onBase _).bind fun _ => refines_closeFile _ (Refines.pure rfl)
  · refine (Refines.lift _).bind fun contentType => ?_
    refine (refines_httpSendHeaderMem io _ _ _ _ _).bind fun r => ?_
    refine Refines.ite (refines_closeFile _ (Refines.pure rfl)) ?_
    exact (refines_sendPageBodyMem io page file).bind fun _ => Refines.pure rfl

end

/-! ## Steps that end -/

theorem stops_extLoop (m : List UInt8) (url ext : ℕ) : Stops (extLoop m url ext) := by
  induction ext with
  | zero =>
    exact Stops.ite (Stops.ok _)
      ((stops_readAt _ _).bind fun _ => Stops.ite (Stops.ok _) Stops.read)
  | succ ext ih =>
    exact Stops.ite (Stops.ok _) ((stops_readAt _ _).bind fun _ => Stops.ite (Stops.ok _) ih)

theorem stops_getMimetype (m : List UInt8) (url : ℕ) : Stops (getMimetype m url) :=
  (stops_strlenFrom _).bind fun _ => Stops.ite Stops.read <|
    (stops_extLoop _ _ _).bind fun _ => (stops_readAt _ _).bind fun _ =>
      (stops_cstring _ _).bind fun _ => Stops.ok _

theorem stops_refusesGzip (isGzip : Bool) (acceptEncoding : List UInt8) :
    Stops (refusesGzip isGzip acceptEncoding) := by
  unfold refusesGzip
  cases isGzip with
  | false => exact Stops.ok _
  | true => exact ((stops_strstrFrom _ _).map _).bind fun _ => Stops.ok _

theorem stops_pageContentType (page : Page) (file : Option NeonRtFsFile) :
    Stops (pageContentType page file) := by
  cases file with
  | none => exact Stops.ok _
  | some fh => exact stops_getMimetype _ _

theorem stops_readImg (img : List UInt8) (p len : ℤ) : Stops (readImg img p len) := by
  unfold readImg
  split
  · exact Stops.ok _
  · exact Stops.read

theorem stops_neonRtFsRead (img : List UInt8) (fh : NeonRtFsFile) (len : ℤ) :
    Stops (neonRtFsRead img fh len) := by
  refine Stops.ite ?_ (Stops.ok _)
  exact Stops.ite ((Stops.ok []).bind fun _ => Stops.ok _)
    ((stops_readImg _ _ _).bind fun _ => Stops.ok _)

/-- What has been read lies in the image, and the file is behind it afterwards. -/
theorem neonRtFsRead_pos {img bs : List UInt8} {fh fh' : NeonRtFsFile} {len : ℤ}
    (h : neonRtFsRead img fh len = .ok (bs, fh')) (hpos : 0 < bs.length) :
    0 ≤ fh.posComp ∧ fh'.posComp = fh.posComp + bs.length ∧
      fh.posComp + bs.length ≤ img.length := by
  unfold neonRtFsRead at h
  split at h
  · dsimp only at h
    generalize (if fh.header.fileLenComp - (fh.posComp - fh.posStart) < len then
      fh.header.fileLenComp - (fh.posComp - fh.posStart) else len) = n at h
    by_cases hn : n = 0
    · rw [if_pos hn] at h
      cases h
      exact absurd hpos (Nat.lt_irrefl 0)
    · rw [if_neg hn] at h
      obtain ⟨buff, hbuff, h⟩ := bind_eq_ok.mp h
      cases h
      unfold readImg at hbuff
      split at hbuff
      · next hin =>
        cases hbuff
        rw [List.length_take, List.length_drop]
        refine ⟨hin.1, ?_, ?_⟩
        · show fh.posComp + _ = _
          omega
        · omega
      · exact nomatch hbuff
  · cases h
    exact absurd hpos (Nat.lt_irrefl 0)

/-- The loop that sends a file ends, because each of its rounds but the last goes on in the
image. -/
theorem sendLoop_stops (io : Io) (sendLen : ℕ → ℕ) {fuel : ℕ} {fh : NeonRtFsFile}
    {s : HttpState} (hfuel : s.img.length - fh.posComp.toNat < fuel) (buf : List UInt8) :
    Stops (exec (sendLoop io sendLen fuel fh buf) s).1 := by
  induction fuel generalizing fh buf s with
  | zero => exact absurd hfuel (Nat.not_lt_zero _)
  | succ fuel ih =>
    unfold sendLoop
    rw [exec_bind_ok (exec_view _ s), exec_bind, exec_lift]
    rcases hread : neonRtFsRead s.img fh httpdDatBufSize with e | ⟨bs, fh'⟩
    · intro e' he
      cases he
      exact stops_neonRtFsRead _ _ _ e hread
    · dsimp only
      unfold sendBody
      simp only [bind_assoc, pure_bind]
      rw [exec_bind_ok (exec_view _ s)]
      unfold log
      rw [exec_bind_ok (exec_update _ s), exec_ite]
      split
      · next hmore =>
        have hsize : 0 < httpdDatBufSize := by decide
        obtain ⟨hstart, hpos, hin⟩ := neonRtFsRead_pos hread (by omega)
        refine ih ?_ _
        dsimp only
        omega
      · exact Stops.ok _

/-! ## What is given back -/

section

variable (io : Io)

def fileBlocks (file : Option FileBlock) : List ℕ := file.toList.map Prod.snd

theorem transfers_mallocBlock (size : ℕ) :
    Transfers noFault [] (mallocBlock io size) (fun r => r.toList.map Prod.fst) := by
  intro s others hbal
  unfold mallocBlock memMalloc
  rw [exec_bind, exec_onBase, exec_view]
  dsimp only
  rw [exec_bind, exec_alloc]
  cases io.malloc s.base.events size with
  | none => exact .of_ok hbal
  | some old => exact .of_ok hbal.malloc

section

variable {α : Type} {f : Option (ℕ × List UInt8) → HeapM HttpState α} {post : α → List ℕ}
  {E : Fault → Prop} {r : List ℕ}

theorem transfers_mallocBlock_bind {size : ℕ} (hnone : Transfers E r (f none) post)
    (hsome : ∀ b buf, Transfers E (b :: r) (f (some (b, buf))) post) :
    Transfers E r (mallocBlock io size >>= f) post := by
  refine (transfers_mallocBlock io size).weaken.bind_frame (r := r) fun block => ?_
  cases block with
  | none => exact hnone
  | some block => exact hsome block.1 block.2

end

theorem stops_writeHead (size : ℕ) (h : Head) (s : HttpState) :
    Stops (exec (writeHead size h) s).1 := by
  unfold writeHead
  rw [exec_lift]
  exact Stops.ite (Stops.ok _) Stops.write

theorem transfers_httpSendHeaderMem (statusCode : ℕ) (contentType : List UInt8)
    (contentLength : ℤ) (isGzip : Bool) (newUrl : Option (List UInt8)) :
    Transfers notHang []
      (httpSendHeaderMem io statusCode contentType contentLength isGzip newUrl) (fun _ => []) := by
  refine transfers_mallocBlock_bind io (.pure _ fun _ => []) fun b _ => ?_
  refine (Transfers.onBase (fun _ _ h => nomatch h) [b]).bind fun conn => ?_
  refine (Transfers.onBase (fun s => stops_writeHead _ _ s) [b]).bind fun _ => ?_
  refine (Transfers.onBase (fun _ _ h => nomatch h) [b]).bind fun socketStatus => ?_
  refine (transfers_release b).weaken.bind fun _ => ?_
  exact Transfers.ite (fun _ => .pure _ fun _ => []) fun _ => .pure _ fun _ => []

theorem transfers_closeFile (file : Option FileBlock) :
    Transfers noFault (fileBlocks file) (closeFile file) (fun _ => []) := by
  cases file with
  | none => exact Transfers.pure () fun _ => []
  | some file => exact transfers_release file.2

theorem transfers_openRecordMem (h : Header) (p : ℤ) :
    Transfers noFault [] (openRecordMem io h p) fileBlocks := by
  refine transfers_mallocBlock_bind io (.pure none fileBlocks) fun b _ => ?_
  refine Transfers.ite (fun _ => .pure (some (_, b)) fileBlocks) fun _ => ?_
  exact (transfers_release b).bind fun _ => .pure none fileBlocks

/-- An open file is a block to be given back. The search may hang. -/
theorem transfers_openFileMem (fileName : List UInt8) :
    Transfers anyFault [] (openFileMem io fileName) fileBlocks := by
  have hloop : ∀ img name fuel p,
      Transfers anyFault [] (openLoopMem io img name fuel p) fileBlocks := by
    intro img name fuel
    induction fuel with
    | zero => exact fun p => fun _ _ _ => .of_error trivial
    | succ fuel ih =>
      intro p
      refine (Transfers.lift (fun _ _ => trivial) []).bind fun h => ?_
      refine Transfers.ite (fun _ => ?_) fun _ => Transfers.ite
        (fun _ => .pure none fileBlocks) fun _ => ?_
      · exact (Transfers.onBase (fun _ _ _ => trivial) []).bind fun _ => .pure none fileBlocks
      · refine (Transfers.lift (fun _ _ => trivial) []).bind fun name' => ?_
        exact Transfers.ite (fun _ => (transfers_openRecordMem io h _).weaken) fun _ => ih _
  refine (Transfers.onBase (fun _ _ _ => trivial) []).bind fun s => ?_
  exact Transfers.ite (fun _ => .pure none fileBlocks) fun _ => hloop _ _ _ _

theorem transfers_sendFileMem (sendLen : ℕ → ℕ) (fh : NeonRtFsFile) :
    Transfers notHang [] (sendFileMem io sendLen fh) (fun _ => []) := by
  refine transfers_mallocBlock_bind io (.pure _ fun _ => []) fun b buf => ?_
  have hsend : Transfers notHang [b]
      (onBase (Exec.view (·.img)) >>= fun img =>
        onBase (sendLoop io sendLen (img.length + 1) fh buf)) (fun _ => [b]) := by
    intro s others hbal
    rw [exec_bind_ok (exec_onBase _ s)]
    refine ⟨fun e he => ?_, fun _ _ => hbal⟩
    exact sendLoop_stops io sendLen (Nat.lt_succ_of_le (Nat.sub_le _ _)) buf e he
  have hfree := hsend.bind fun _ => (transfers_release b).weaken
  rw [bind_assoc] at hfree
  exact hfree

theorem transfers_serveFileMem (contentType : List UInt8) (file : Option FileBlock) :
    Transfers notHang (fileBlocks file) (serveFileMem io contentType file) (fun _ => []) := by
  cases file with
  | none => exact Transfers.pure _ fun _ => []
  | some file =>
    have hclose : Transfers notHang [file.2]
        (closeFile (some file) >>= fun _ => pure httpdCgiDone) (fun _ => []) :=
      (transfers_closeFile (some file)).weaken.bind fun _ => .pure _ fun _ => []
    refine (transfers_httpSendHeaderMem io _ _ _ _ _).bind_frame (r := [file.2]) fun r => ?_
    refine Transfers.ite (fun _ => hclose) fun _ => ?_
    exact (transfers_sendFileMem io _ _).bind_frame (r := [file.2]) fun _ => hclose

theorem transfers_sendPageBodyMem (page : Page) (file : Option FileBlock) :
    Transfers notHang (fileBlocks file) (sendPageBodyMem io page file) (fun _ => []) := by
  cases file with
  | none => exact (Transfers.onBase (fun _ _ h => nomatch h) []).bind fun _ => .pure _ fun _ => []
  | some file =>
    refine (transfers_sendFileMem io _ _).bind_frame (r := [file.2]) fun _ => ?_
    exact (transfers_closeFile (some file)).weaken

/-- The head of the answer to a client that accepts no compressed files. -/
def gzipRefusalHead : Http ℤ :=
  httpSendHeader io 501 (ascii "text/plain") retMsg.length false none

/-- The head is not sent. -/
def RefusalFails (s : HttpState) : Prop :=
  Reaches (gzipRefusalHead io) s fun r _ => r ≠ httpdCgiMore

/-- The file stays open if the head of the answer is not sent. -/
theorem loses_refuseGzipMem (file : Option FileBlock) :
    Loses (fileBlocks file) (refuseGzipMem io file) (fun _ => [])
      (fun s => file.isSome ∧ RefusalFails io s.base) := by
  have hhead : Transfers notHang (fileBlocks file)
      (httpSendHeaderMem io 501 (ascii "text/plain") retMsg.length false none)
      (fun _ => fileBlocks file) := (transfers_httpSendHeaderMem io _ _ _ _ _).frame _
  have hbody : Transfers notHang (fileBlocks file)
      (onBase (sendBody io retMsg) >>= fun _ => closeFile file >>= fun _ => pure httpdCgiDone)
      (fun _ => []) :=
    (Transfers.onBase (fun _ _ h => nomatch h) _).bind fun _ =>
      (transfers_closeFile file).weaken.bind fun _ => .pure _ fun _ => []
  refine (Loses.bind hhead fun r => Loses.ite (fun _ => .forget (fileBlocks file) httpdCgiDone)
    fun _ => hbody).congr fun s => ?_
  have hblocks : fileBlocks file ≠ [] ↔ file.isSome := by
    cases file with
    | none => exact ⟨fun h => absurd rfl h, nofun⟩
    | some file => exact ⟨fun _ => rfl, fun _ => List.cons_ne_nil _ _⟩
  unfold RefusalFails gzipRefusalHead
  rw [← (refines_httpSendHeaderMem io _ _ _ _ _).reaches, ← hblocks]
  constructor
  · rintro ⟨hne, a, s', hexec, ha⟩
    exact ⟨a, s', hexec, ha, hne⟩
  · rintro ⟨a, s', hexec, ha, hne⟩
    exact ⟨hne, a, s', hexec, ha⟩

/-- The client accepts no file like this one. -/
def NotAccepted (file : Option NeonRtFsFile) (s : HttpState) : Prop :=
  refusesGzip (hasFlag (neonRtFsFlags file) flagGzip) s.conn.acceptEncoding = .ok true

theorem loses_servePageMem (page : Page) (newUrl : Option (List UInt8)) (file : Option FileBlock) :
    Loses (fileBlocks file) (servePageMem io page newUrl file) (fun _ => [])
      (fun s => file.isSome ∧ NotAccepted (file.map Prod.fst) s.base ∧ RefusalFails io s.base) := by
  have hclose : Transfers notHang (fileBlocks file)
      (closeFile file >>= fun _ => pure httpdCgiDone) (fun _ => []) :=
    (transfers_closeFile file).weaken.bind fun _ => .pure _ fun _ => []
  have hview : ∀ s e, (exec (Exec.view (·.conn) : Http Conn) s).1 = .error e → notHang e :=
    fun _ _ h => nomatch h
  refine (Loses.bind (Transfers.onBase hview _) fun conn =>
    Loses.bind (Transfers.lift (stops_refusesGzip _ _) _) fun refused =>
      Loses.ite (fun _ => loses_refuseGzipMem io file) fun _ => ?_).congr fun s => ?_
  · refine (Transfers.lift (stops_pageContentType _ _) _).bind fun contentType => ?_
    refine ((transfers_httpSendHeaderMem io _ _ _ _ _).frame (fileBlocks file)).bind fun r => ?_
    refine Transfers.ite (fun _ => hclose) fun _ => ?_
    exact (transfers_sendPageBodyMem io page file).bind fun _ => .pure _ fun _ => []
  · rw [reaches_onBase_view, reaches_lift]
    constructor
    · rintro ⟨hfile, hrefused, hfails⟩
      exact ⟨true, hrefused, rfl, hfile, hfails⟩
    · rintro ⟨refused, hrefused, htrue, hfile, hfails⟩
      rw [htrue] at hrefused
      exact ⟨hfile, hrefused, hfails⟩

/-- The file is opened, but the client does not accept it and cannot be told. -/
def PageLeaks (page : Page) (s : HttpState) : Prop :=
  Reaches (openFile io page.fileName) s fun file s' =>
    file.isSome ∧ NotAccepted file s' ∧ RefusalFails io s'

/-- `NeonRtFsOpen` does not come to an end. -/
def OpenHangs (s : HttpState) (fileName : List UInt8) : Prop :=
  (exec (openFile io fileName) s).1 = .error .hang

/-- `HTTPd_Redirect` and `HTTPd_NotFound` end with the blocks that were there if and only if the
search for the file ends and the file does not stay open. -/
theorem httpdSendPageMem_iff (page : Page) (newUrl : Option (List UInt8))
    {s : Heaped HttpState} {others : List ℕ} (hbal : Balanced s.ledger others) :
    (Finishes notHang (exec (httpdSendPageMem io page newUrl) s) fun _ s' =>
        Balanced s'.ledger others) ↔
      ¬ OpenHangs io s.base page.fileName ∧ ¬ PageLeaks io page s.base := by
  unfold httpdSendPageMem
  rw [Loses.bind_balanced_iff (transfers_openFileMem io _) (loses_servePageMem io page newUrl) hbal]
  refine and_congr (not_congr (refines_openFileMem io _).error_iff) (not_congr ?_)
  unfold PageLeaks
  rw [← (refines_openFileMem io _).reaches]
  simp only [Option.isSome_map]

/-- The search of `HTTPd_SendWebFile` does not come to an end. -/
def WebFileHangs (s : HttpState) : Prop :=
  ∃ url, s.conn.url = some url ∧ ∃ contentType fileName, getMimetype s.urlMem url = .ok contentType ∧
    cstring s.urlMem url = .ok fileName ∧ OpenHangs io s fileName

/-- `HTTPd_SendWebFile` ends with the blocks that were there if and only if the search ends. -/
theorem httpdSendWebFileMem_iff {s : Heaped HttpState} {others : List ℕ}
    (hbal : Balanced s.ledger others) :
    (Finishes notHang (exec (httpdSendWebFileMem io) s) fun _ s' => Balanced s'.ledger others) ↔
      ¬ WebFileHangs io s.base := by
  unfold httpdSendWebFileMem WebFileHangs
  rw [exec_bind_ok (exec_onBase (Exec.view id) s)]
  dsimp only [exec_view, id]
  rcases hurl : s.base.conn.url with _ | url
  · refine iff_of_true (.of_ok hbal) ?_
    rintro ⟨url, h, -⟩
    exact nomatch h
  dsimp only
  rw [exec_bind, exec_lift]
  rcases htype : getMimetype s.base.urlMem url with e | contentType
  · refine iff_of_true (.of_error (stops_getMimetype _ _ e htype)) ?_
    rintro ⟨url', h, contentType, fileName, htype', -⟩
    cases h
    exact nomatch htype.symm.trans htype'
  dsimp only
  rw [exec_bind, exec_lift]
  rcases hname : cstring s.base.urlMem url with e | fileName
  · refine iff_of_true (.of_error (stops_cstring _ _ e hname)) ?_
    rintro ⟨url', h, contentType, fileName, -, hname', -⟩
    cases h
    exact nomatch hname.symm.trans hname'
  dsimp only
  rw [Loses.bind_balanced_iff (transfers_openFileMem io fileName)
    (fun file => .of_transfers (transfers_serveFileMem io contentType file)) hbal]
  have hhang := (refines_openFileMem io fileName).error_iff (s := s) (e := .hang)
  constructor
  · rintro ⟨hne, -⟩ ⟨url', h, contentType', fileName', htype', hname', hopen⟩
    cases h
    cases hname.symm.trans hname'
    exact hne (hhang.mpr hopen)
  · intro hnot
    refine ⟨fun h => hnot ⟨url, rfl, contentType, fileName, htype, hname, hhang.mp h⟩, ?_⟩
    rintro ⟨file, s', -, hfalse⟩
    exact hfalse

end

end WLink.Httpd
