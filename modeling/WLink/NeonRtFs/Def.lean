import WLink.Lib.Bytes
import WLink.Lib.CString

/-!
# The read-only file system

The image format of `NeonRtFsFormat.h` and the functions of `NeonRtFs.c`. The image is the
byte array `neonrtfs_img`, a pointer into it an offset that the arithmetic on lengths can take
out of the array on both sides; a read out there is a `Fault.read`. Heatshrink is not compiled
in, so every compressed file is refused.

* `neonRtFsInit` -- accept an image
* `neonRtFsOpen` -- look a file up
* `neonRtFsFlags`, `neonRtFsRead` -- what is done with an open file
-/

namespace WLink.NeonRtFs

open WLink.Lib

/-! ## Format -/

def neonrtfsMagic : ℤ := 0x73665345
def flagLastfile : ℕ := 0
def flagGzip : ℕ := 1
def compressNone : ℤ := 0

/-- `NeonRtFsHeader`, a packed record of sixteen bytes in little-endian order. -/
structure Header where
  magic : ℤ
  flags : ℤ
  compression : ℤ
  nameLen : ℤ
  fileLenComp : ℤ
  fileLenDecomp : ℤ
deriving DecidableEq, Repr

def headerSize : ℕ := 16

/-- Whether the bit `k` of a flag word is set. -/
def hasFlag (flags : ℤ) (k : ℕ) : Bool := flags / 2 ^ k % 2 = 1

/-- The record that sixteen bytes hold. -/
def Header.ofBytes (bs : List UInt8) : Header where
  magic := toSigned 32 (ofLeBytes (bs.take 4))
  flags := toSigned 8 (ofLeBytes ((bs.drop 4).take 1))
  compression := toSigned 8 (ofLeBytes ((bs.drop 5).take 1))
  nameLen := toSigned 16 (ofLeBytes ((bs.drop 6).take 2))
  fileLenComp := toSigned 32 (ofLeBytes ((bs.drop 8).take 4))
  fileLenDecomp := toSigned 32 (ofLeBytes ((bs.drop 12).take 4))

/-- `NeonRtFsFile`. -/
structure NeonRtFsFile where
  header : Header
  decompressor : ℤ
  posDecomp : ℤ
  posStart : ℤ
  posComp : ℤ
deriving DecidableEq, Repr

/-! ## The code -/

/-- `memcpy` of `len` bytes of the image at an offset. -/
def readImg (img : List UInt8) (p len : ℤ) : Except Fault (List UInt8) :=
  if 0 ≤ p ∧ 0 ≤ len ∧ p + len ≤ img.length then .ok ((img.drop p.toNat).take len.toNat)
  else .error .read

def readHeader (img : List UInt8) (p : ℤ) : Except Fault Header :=
  (readImg img p headerSize).map Header.ofBytes

inductive NeonRtFsInitResult
  | ok
  | noImage
deriving DecidableEq, Repr

/-- `NeonRtFsInit`, with the new value of `NeonRtFsInitDone`. -/
def neonRtFsInit (img : List UInt8) (initDone : Bool) :
    Except Fault (NeonRtFsInitResult × Bool) := do
  let testHeader ← readHeader img 0
  if testHeader.magic ≠ neonrtfsMagic then pure (.noImage, initDone)
  else pure (.ok, true)

/-- `strncmp(a, b, min(strlen(a), strlen(b))) == 0`. -/
def sameStart (a b : List UInt8) : Bool :=
  let len := min a.length b.length
  a.take len = b.take len

/-- The name of a record: at most 256 bytes of it, up to the first NUL. -/
def readName (img : List UInt8) (p nameLen : ℤ) : Except Fault (List UInt8) :=
  (readImg img p (min 256 nameLen)).map fun bs => bs.takeWhile (· ≠ 0)

/-- The next multiple of four. -/
def align4 (p : ℤ) : ℤ := if p % 4 ≠ 0 then p + (4 - p % 4) else p

/-- The file record for a header whose content starts at `p`. -/
def openRecord (h : Header) (p : ℤ) (mallocOk : Bool) : Option NeonRtFsFile :=
  if mallocOk then
    if h.compression = compressNone then some ⟨h, h.compression, 0, p, p⟩ else none
  else none

/-- The `while (1)` of `NeonRtFsOpen`, with a bound on its rounds: the file, and whether the
image still counts as initialised. -/
def openLoop (img fileName : List UInt8) (mallocOk : Bool) :
    ℕ → ℤ → Except Fault (Option NeonRtFsFile × Bool)
  | 0, _ => .error .hang
  | fuel + 1, p => do
    let h ← readHeader img p
    let p := p + headerSize
    if h.magic ≠ neonrtfsMagic then pure (none, false)
    else if hasFlag h.flags flagLastfile then pure (none, true)
    else
      let name ← readName img p h.nameLen
      if sameStart name fileName then pure (openRecord h (p + h.nameLen) mallocOk, true)
      else openLoop img fileName mallocOk fuel (align4 (p + (h.nameLen + h.fileLenComp)))

/-- The slashes in front of a file name are skipped. -/
def stripSlashes (fileName : List UInt8) : List UInt8 := fileName.dropWhile (· = 47)

/-- `NeonRtFsOpen`. -/
def neonRtFsOpen (img : List UInt8) (initDone mallocOk : Bool) (fileName : List UInt8) :
    Except Fault (Option NeonRtFsFile × Bool) :=
  if initDone = false then .ok (none, false)
  else openLoop img (stripSlashes fileName) mallocOk (img.length + 1) 0

/-- `NeonRtFsFlags`. -/
def neonRtFsFlags : Option NeonRtFsFile → ℤ
  | none => -1
  | some fh => fh.header.flags

/-- `NeonRtFsRead`: the bytes stored in the buffer, whose number is the result, and the file
behind them. -/
def neonRtFsRead (img : List UInt8) (fh : NeonRtFsFile) (len : ℤ) :
    Except Fault (List UInt8 × NeonRtFsFile) := do
  if fh.decompressor = compressNone then
    let toRead := fh.header.fileLenComp - (fh.posComp - fh.posStart)
    let len := if toRead < len then toRead else len
    let buff ← if len = 0 then pure [] else readImg img fh.posComp len
    pure (buff, { fh with posDecomp := fh.posDecomp + len, posComp := fh.posComp + len })
  else pure ([], fh)

end WLink.NeonRtFs
