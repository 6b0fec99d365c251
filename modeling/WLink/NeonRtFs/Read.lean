import WLink.NeonRtFs.Image

/-!
# Reading an open file

`Opened img fh content off` says that `fh` is an open file with the stored content `content` of
which `off` bytes have been read. `NeonRtFsRead` returns the next bytes and moves on
(`Opened.read`). A file that `NeonRtFsOpen` has just opened is at its start
(`neonRtFsOpen_cases`).
-/

namespace WLink.NeonRtFs

open WLink.Lib

/-- An open file, the content it refers to, and how much of it has been read. -/
structure Opened (img : List UInt8) (fh : NeonRtFsFile) (content : List UInt8) (off : ℕ) :
    Prop where
  plain : fh.decompressor = compressNone
  fileLen : fh.header.fileLenComp = content.length
  stored : readImg img fh.posStart content.length = .ok content
  pos : fh.posComp = fh.posStart + off
  off_le : off ≤ content.length

/-- A part of what can be read can be read. -/
theorem readImg_part {img bs : List UInt8} {p : ℤ} {len off n : ℕ}
    (h : readImg img p len = .ok bs) (hle : off + n ≤ len) :
    readImg img (p + off) n = .ok ((bs.drop off).take n) := by
  unfold readImg at h ⊢
  split at h
  · rename_i hin
    cases h
    rw [if_pos (by omega)]
    have hp : (p + off).toNat = p.toNat + off := by omega
    rw [hp, Int.toNat_natCast, Int.toNat_natCast, List.drop_take, List.take_take, List.drop_drop,
      Nat.min_eq_left (by omega)]
  · cases h

/-- The content lies in the image. -/
theorem Opened.length_le {img content : List UInt8} {fh : NeonRtFsFile} {off : ℕ}
    (h : Opened img fh content off) : content.length ≤ img.length := by
  have hstored := h.stored
  unfold readImg at hstored
  split at hstored
  · omega
  · cases hstored

/-- A read returns the next bytes of the content and leaves the file behind them. -/
theorem Opened.read {img content : List UInt8} {fh : NeonRtFsFile} {off : ℕ}
    (h : Opened img fh content off) (len : ℕ) :
    ∃ fh', neonRtFsRead img fh len = .ok ((content.drop off).take len, fh') ∧
      Opened img fh' content (off + min len (content.length - off)) := by
  have hoff := h.off_le
  obtain ⟨n, hn⟩ : ∃ n, n = min len (content.length - off) := ⟨_, rfl⟩
  have htoRead : fh.header.fileLenComp - (fh.posComp - fh.posStart) =
      (content.length - off : ℕ) := by
    rw [h.fileLen, h.pos]
    omega
  have hlen : (if ((content.length - off : ℕ) : ℤ) < len then ((content.length - off : ℕ) : ℤ)
      else len) = n := by
    split <;> omega
  have htake : (content.drop off).take len = (content.drop off).take n := by
    rw [hn, List.take_eq_take_iff, List.length_drop]
    omega
  refine ⟨{ fh with posDecomp := fh.posDecomp + n, posComp := fh.posComp + n }, ?_,
    ⟨h.plain, h.fileLen, h.stored, ?_, by omega⟩⟩
  · unfold neonRtFsRead
    rw [if_pos h.plain]
    simp only [htoRead, hlen]
    split
    · have hzero : n = 0 := by omega
      rw [htake, hzero, List.take_zero]
      rfl
    · rw [h.pos, htake, readImg_part h.stored (show off + n ≤ content.length by omega)]
      rfl
  · show fh.posComp + n = fh.posStart + _
    rw [h.pos, ← hn]
    omega

/-- The record that a file name selects. -/
def selected (files : List FsEntry) (fileName : List UInt8) : Option FsEntry :=
  files.find? fun e => StartAlike e.name (stripSlashes fileName)

/-- `NeonRtFsOpen` opens the selected record at its start, if there is one. -/
theorem neonRtFsOpen_cases (files : List FsEntry) (fileName : List UInt8) :
    (selected files fileName = none ∧
        neonRtFsOpen (encodeImage files) true true fileName = .ok (none, true)) ∨
      ∃ (e : FsEntry) (fh : NeonRtFsFile), selected files fileName = some e ∧
        neonRtFsOpen (encodeImage files) true true fileName = .ok (some fh, true) ∧
        fh.header = e.header ∧ Opened (encodeImage files) fh e.content 0 := by
  rw [neonRtFsOpen_encodeImage]
  rcases firstAlike_cases (stripSlashes fileName) 0 files with
    ⟨hnone, heq⟩ | ⟨i, e, hi, hmatch, hfirst, heq⟩
  · refine Or.inl ⟨?_, by rw [heq]⟩
    unfold selected
    rw [List.find?_eq_none]
    intro e he
    simpa using hnone e he
  · refine Or.inr ⟨e, e.handle (recordStart files i), ?_, by rw [heq, Nat.zero_add], rfl,
      ⟨rfl, rfl, readImg_handle hi, (Int.add_zero _).symm, Nat.zero_le _⟩⟩
    obtain ⟨hlt, hget⟩ := List.getElem?_eq_some_iff.mp hi
    unfold selected
    rw [List.find?_eq_some_iff_getElem]
    refine ⟨by simpa using hmatch, i, hlt, hget, fun j hj => ?_⟩
    simpa using hfirst j hj _ (List.getElem?_eq_getElem (by omega))

/-- The flag word of a record says whether its content is compressed by gzip. -/
theorem hasFlag_gzip (e : FsEntry) : hasFlag e.header.flags flagGzip = e.gzip := by
  show hasFlag (e.flags : ℤ) flagGzip = e.gzip
  unfold FsEntry.flags
  cases e.gzip <;> rfl

end WLink.NeonRtFs
