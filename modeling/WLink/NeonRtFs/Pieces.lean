import WLink.NeonRtFs.Build
import WLink.NeonRtFs.Read

/-!
# Reading a file in pieces

A file that `NeonRtFsOpen` has opened, in any image, and a sequence of reads of any sizes. The calls
return the content piece by piece and stop at its end: `exists_readsInPieces` puts the steps of
`Opened.read` together.
-/

namespace WLink.NeonRtFs

open WLink.Lib

/-- The number that `NeonRtFsRead` returns. -/
def readResult (fh : NeonRtFsFile) (len : ℤ) : ℤ :=
  if fh.decompressor = compressNone then
    let toRead := fh.header.fileLenComp - (fh.posComp - fh.posStart)
    if toRead < len then toRead else len
  else 0

/-- A call of `NeonRtFsRead` that is over: its result, what it has stored in the buffer, and the file
behind it. -/
structure ReadCall where
  result : ℤ
  piece : List UInt8
  file : NeonRtFsFile
deriving DecidableEq

/-- One call of `NeonRtFsRead` after the other. -/
def readCalls (img : List UInt8) : NeonRtFsFile → List ℕ → Except Fault (List ReadCall)
  | _, [] => .ok []
  | fh, len :: sizes => do
    let (piece, fh') ← neonRtFsRead img fh len
    let calls ← readCalls img fh' sizes
    pure (⟨readResult fh len, piece, fh'⟩ :: calls)

/-- What reads of these sizes give of a file. -/
structure ReadsInPieces (img : List UInt8) (fh : NeonRtFsFile) (content : List UInt8)
    (sizes : List ℕ) (calls : List ReadCall) : Prop where
  run : readCalls img fh sizes = .ok calls
  pieces : (calls.map ReadCall.piece).flatten = content.take (min sizes.sum content.length)
  result : ∀ call ∈ calls, call.result = call.piece.length
  /-- what the calls before it were to read goes to the end of the file -/
  atEnd : ∀ (i : ℕ) call, calls[i]? = some call → content.length ≤ (sizes.take i).sum →
    call.result = 0
  pos : ∀ call ∈ calls, call.file.posComp ≤ fh.posStart + content.length

section

variable {img content : List UInt8} {fh fh' : NeonRtFsFile} {off : ℕ}

/-! ## An open file -/

theorem openRecord_start {h : Header} {p : ℤ} {mallocOk : Bool}
    (hopen : openRecord h p mallocOk = some fh) :
    fh.decompressor = compressNone ∧ fh.posComp = fh.posStart := by
  unfold openRecord at hopen
  split_ifs at hopen with hmalloc hplain
  cases hopen
  exact ⟨hplain, rfl⟩

theorem openLoop_start {fileName : List UInt8} {mallocOk done : Bool} {fuel : ℕ} {p : ℤ}
    (h : openLoop img fileName mallocOk fuel p = .ok (some fh, done)) :
    fh.decompressor = compressNone ∧ fh.posComp = fh.posStart := by
  induction fuel generalizing p with
  | zero => exact absurd h nofun
  | succ fuel ih =>
    rw [openLoop, bind_eq_ok] at h
    obtain ⟨hdr, -, h⟩ := h
    dsimp only at h
    split_ifs at h
    · exact absurd h nofun
    · exact absurd h nofun
    · -- the record is the one, or the search goes on behind it
      rw [bind_eq_ok] at h
      obtain ⟨name, -, h⟩ := h
      split_ifs at h
      · exact openRecord_start (congrArg Prod.fst (Except.ok.inj h))
      · exact ih h

/-- A file that has been opened in any image is plain and at its start. -/
theorem neonRtFsOpen_start {fileName : List UInt8} {initDone mallocOk done : Bool}
    (h : neonRtFsOpen img initDone mallocOk fileName = .ok (some fh, done)) :
    fh.decompressor = compressNone ∧ fh.posComp = fh.posStart := by
  unfold neonRtFsOpen at h
  split_ifs at h
  · exact absurd h nofun
  · exact openLoop_start h

/-! ## One read -/

theorem neonRtFsRead_posStart {len : ℤ} {piece : List UInt8}
    (h : neonRtFsRead img fh len = .ok (piece, fh')) : fh'.posStart = fh.posStart := by
  unfold neonRtFsRead at h
  by_cases hplain : fh.decompressor = compressNone
  · obtain ⟨n, hn⟩ : ∃ n, (if fh.header.fileLenComp - (fh.posComp - fh.posStart) < len then
        fh.header.fileLenComp - (fh.posComp - fh.posStart) else len) = n := ⟨_, rfl⟩
    rw [if_pos hplain] at h
    simp only [hn] at h
    split_ifs at h
    · cases h
      rfl
    · obtain ⟨bs, -, h⟩ := bind_eq_ok.mp h
      cases h
      rfl
  · rw [if_neg hplain] at h
    cases h
    rfl

/-- A read returns the number of bytes that it stores. -/
theorem Opened.readResult_eq (h : Opened img fh content off) (len : ℕ) :
    readResult fh len = ((content.drop off).take len).length := by
  have hoff := h.off_le
  unfold readResult
  rw [if_pos h.plain, h.fileLen, h.pos, List.length_take, List.length_drop]
  dsimp only
  split_ifs <;> omega

/-! ## All reads -/

/-- Reads that begin somewhere in the file. -/
theorem Opened.readCalls_ok (h : Opened img fh content off) (sizes : List ℕ) :
    ∃ calls, readCalls img fh sizes = .ok calls ∧
      (calls.map ReadCall.piece).flatten = (content.drop off).take sizes.sum ∧
      (∀ call ∈ calls, call.result = call.piece.length ∧
        call.file.posComp ≤ fh.posStart + content.length) ∧
      ∀ (i : ℕ) call, calls[i]? = some call → content.length ≤ off + (sizes.take i).sum →
        call.result = 0 := by
  induction sizes generalizing fh off with
  | nil =>
    refine ⟨[], rfl, rfl, fun call hmem => absurd hmem List.not_mem_nil, fun i call hcall => ?_⟩
    rw [List.getElem?_nil] at hcall
    exact absurd hcall.symm (Option.some_ne_none call)
  | cons len sizes ih =>
    -- the rest is read from where this call leaves the file
    obtain ⟨fh', hread, hopened⟩ := h.read len
    obtain ⟨calls, hcalls, hpieces, heach, hend⟩ := ih hopened
    have hresult := h.readResult_eq len
    have hstart := neonRtFsRead_posStart hread
    have hoff := h.off_le
    refine ⟨⟨readResult fh len, (content.drop off).take len, fh'⟩ :: calls, ?_, ?_, ?_, ?_⟩
    · rw [readCalls, hread]
      change (readCalls img fh' sizes >>= _) = _
      rw [hcalls]
      rfl
    · have hrest : content.drop (off + min len (content.length - off)) =
          content.drop (off + len) := by
        rcases Nat.le_total len (content.length - off) with hle | hle
        · rw [Nat.min_eq_left hle]
        · -- the read has come to the end of the file
          rw [Nat.min_eq_right hle, List.drop_eq_nil_of_le (by omega),
            List.drop_eq_nil_of_le (by omega)]
      rw [List.map_cons, List.flatten_cons, hpieces, hrest, List.sum_cons, List.take_add,
        List.drop_drop]
    · rintro call (_ | ⟨_, hmem⟩)
      · refine ⟨hresult, ?_⟩
        have hpos := hopened.pos
        have hle := hopened.off_le
        dsimp only
        omega
      · obtain ⟨hcall, hpos⟩ := heach call hmem
        exact ⟨hcall, hstart ▸ hpos⟩
    · rintro (_ | i) call hcall hlen
      · cases hcall
        have hlength : ((content.drop off).take len).length = 0 := by
          rw [List.length_take, List.length_drop]
          rw [List.take_zero, List.sum_nil] at hlen
          omega
        rw [hresult, hlength]
        rfl
      · refine hend i call hcall ?_
        rw [List.take_succ_cons, List.sum_cons] at hlen
        omega

/-- Reads of any sizes of a file that has been opened return its content piece by piece. -/
theorem exists_readsInPieces {fileName : List UInt8} {initDone mallocOk done : Bool}
    (hopen : neonRtFsOpen img initDone mallocOk fileName = .ok (some fh, done))
    (hstored : readImg img fh.posStart fh.header.fileLenComp = .ok content) (sizes : List ℕ) :
    ∃ calls, ReadsInPieces img fh content sizes calls := by
  obtain ⟨hplain, hpos⟩ := neonRtFsOpen_start hopen
  have hlength := length_of_readImg hstored
  rw [← hlength] at hstored
  have hopened : Opened img fh content 0 :=
    ⟨hplain, hlength.symm, hstored, by rw [hpos]; exact (add_zero _).symm, Nat.zero_le _⟩
  obtain ⟨calls, hcalls, hpieces, heach, hend⟩ := hopened.readCalls_ok sizes
  refine ⟨calls, hcalls, ?_, fun call hmem => (heach call hmem).1, fun i call hcall hlen => ?_,
    fun call hmem => (heach call hmem).2⟩
  · rw [hpieces, List.drop_zero, List.take_eq_take_iff, Nat.min_assoc, Nat.min_self]
  · exact hend i call hcall (by omega)

/-- Reads of nothing, past the end, and at the end. -/
theorem exists_readsInPieces_prefixNames :
    ∃ calls, ReadsInPieces (encodeImage prefixNames) ⟨⟨neonrtfsMagic, 0, 0, 8, 1, 1⟩, 0, 0, 24, 24⟩
      [1] [0, 9, 3] calls :=
  exists_readsInPieces (by decide +kernel :
    neonRtFsOpen (encodeImage prefixNames) true true (ascii "/a.htm") =
      .ok (some ⟨⟨neonrtfsMagic, 0, 0, 8, 1, 1⟩, 0, 0, 24, 24⟩, true)) (by decide +kernel) _

end

end WLink.NeonRtFs
