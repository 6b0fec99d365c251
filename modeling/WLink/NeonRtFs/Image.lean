import WLink.NeonRtFs.Def
import WLink.Lib.Search

/-!
# Images

What the format prescribes for a list of files, and what `NeonRtFsOpen` finds in it. The names
of two files that start alike count as the same, so the first record whose name starts like
the requested one is opened (`neonRtFsOpen_encodeImage`). `opensNamed_iff` says for which file
names this is the record that was asked for.
-/

namespace WLink.NeonRtFs

open WLink.Lib

/-! ## Encoding -/

/-- A file of an image. Its flag word has no other flag than `FLAG_GZIP`; an image does not say
what the length in `fileLenDecomp` is used for in a file that is stored as it is. -/
structure FsEntry where
  name : List UInt8
  content : List UInt8
  gzip : Bool
  lenDecomp : ℕ
  name_ne : name ≠ []
  nul_notMem : 0 ∉ name
  name_le : name.length ≤ 255
  content_lt : content.length < 2 ^ 31
  lenDecomp_lt : lenDecomp < 2 ^ 31

/-- The header of a record that is stored as it is. -/
def encodeHeader (flags nameLen lenComp lenDecomp : ℕ) : List UInt8 :=
  leBytes 4 0x73665345 ++ (leBytes 1 flags ++ (leBytes 1 0 ++ (leBytes 2 nameLen ++
    (leBytes 4 lenComp ++ leBytes 4 lenDecomp))))

/-- How many zero bytes follow `len` bytes up to a multiple of four. -/
def padding (len : ℕ) : ℕ := (4 - len % 4) % 4

namespace FsEntry

variable (e : FsEntry)

/-- The name with its NUL takes up a multiple of four bytes. -/
def nameLen : ℕ := e.name.length + 1 + padding (e.name.length + 1)

def flags : ℕ := if e.gzip then 2 else 0

def paddedName : List UInt8 := e.name ++ List.replicate (e.nameLen - e.name.length) 0

def paddedContent : List UInt8 := e.content ++ List.replicate (padding e.content.length) 0

def encode : List UInt8 :=
  encodeHeader e.flags e.nameLen e.content.length e.lenDecomp ++ (e.paddedName ++ e.paddedContent)

/-- The header as the code reads it. -/
def header : Header where
  magic := neonrtfsMagic
  flags := e.flags
  compression := compressNone
  nameLen := e.nameLen
  fileLenComp := e.content.length
  fileLenDecomp := e.lenDecomp

/-- The open file of a record at an offset. -/
def handle (p : ℕ) : NeonRtFsFile where
  header := e.header
  decompressor := compressNone
  posDecomp := 0
  posStart := (p + headerSize + e.nameLen : ℕ)
  posComp := (p + headerSize + e.nameLen : ℕ)

end FsEntry

/-- The record that closes an image. -/
def closing : List UInt8 := encodeHeader 1 0 0 0

def encodeImage (files : List FsEntry) : List UInt8 := files.flatMap FsEntry.encode ++ closing

/-! ## Reading a record -/

theorem length_encodeHeader (a b c d : ℕ) : (encodeHeader a b c d).length = headerSize := by
  simp [encodeHeader, headerSize]

theorem header_ofBytes {flags nameLen lenComp lenDecomp : ℕ} (hf : flags < 2 ^ 7)
    (hn : nameLen < 2 ^ 15) (hc : lenComp < 2 ^ 31) (hd : lenDecomp < 2 ^ 31) :
    Header.ofBytes (encodeHeader flags nameLen lenComp lenDecomp) =
      ⟨neonrtfsMagic, flags, compressNone, nameLen, lenComp, lenDecomp⟩ := by
  have h₀ : (encodeHeader flags nameLen lenComp lenDecomp).take 4 = leBytes 4 0x73665345 := rfl
  have h₁ : ((encodeHeader flags nameLen lenComp lenDecomp).drop 4).take 1 = leBytes 1 flags := rfl
  have h₂ : ((encodeHeader flags nameLen lenComp lenDecomp).drop 5).take 1 = leBytes 1 0 := rfl
  have h₃ : ((encodeHeader flags nameLen lenComp lenDecomp).drop 6).take 2 = leBytes 2 nameLen :=
    rfl
  have h₄ : ((encodeHeader flags nameLen lenComp lenDecomp).drop 8).take 4 = leBytes 4 lenComp :=
    rfl
  have h₅ : ((encodeHeader flags nameLen lenComp lenDecomp).drop 12).take 4 =
      leBytes 4 lenDecomp := rfl
  unfold Header.ofBytes
  rw [h₀, h₁, h₂, h₃, h₄, h₅]
  simp only [ofLeBytes_leBytes]
  rw [Nat.mod_eq_of_lt (show flags < 256 ^ 1 by omega),
    Nat.mod_eq_of_lt (show nameLen < 256 ^ 2 by omega),
    Nat.mod_eq_of_lt (show lenComp < 256 ^ 4 by omega),
    Nat.mod_eq_of_lt (show lenDecomp < 256 ^ 4 by omega), toSigned_of_lt (n := flags) hf,
    toSigned_of_lt (n := nameLen) hn, toSigned_of_lt (n := lenComp) hc,
    toSigned_of_lt (n := lenDecomp) hd]
  rfl

/-- A part of the image is read where it stands. -/
theorem readImg_middle (a b c : List UInt8) :
    readImg (a ++ (b ++ c)) a.length b.length = .ok b := by
  unfold readImg
  rw [if_pos (by simp only [List.length_append]; omega), Int.toNat_natCast, Int.toNat_natCast,
    List.drop_left, List.take_left]

theorem readHeader_encode (a rest : List UInt8) {flags nameLen lenComp lenDecomp : ℕ}
    (hf : flags < 2 ^ 7) (hn : nameLen < 2 ^ 15) (hc : lenComp < 2 ^ 31)
    (hd : lenDecomp < 2 ^ 31) :
    readHeader (a ++ (encodeHeader flags nameLen lenComp lenDecomp ++ rest)) a.length =
      .ok ⟨neonrtfsMagic, flags, compressNone, nameLen, lenComp, lenDecomp⟩ := by
  unfold readHeader
  rw [← length_encodeHeader flags nameLen lenComp lenDecomp, readImg_middle]
  exact congrArg Except.ok (header_ofBytes hf hn hc hd)

namespace FsEntry

variable (e : FsEntry)

theorem nameLen_bounds :
    e.name.length + 1 ≤ e.nameLen ∧ e.nameLen ≤ 256 ∧ e.nameLen % 4 = 0 := by
  have := e.name_le
  unfold nameLen padding
  omega

theorem length_paddedName : e.paddedName.length = e.nameLen := by
  have := e.nameLen_bounds
  unfold paddedName
  rw [List.length_append, List.length_replicate]
  omega

theorem length_paddedContent :
    e.paddedContent.length = e.content.length + padding e.content.length := by
  unfold paddedContent
  rw [List.length_append, List.length_replicate]

theorem length_encode :
    e.encode.length = headerSize + e.nameLen + e.content.length + padding e.content.length := by
  unfold encode
  rw [List.length_append, List.length_append, length_encodeHeader, e.length_paddedName,
    e.length_paddedContent]
  omega

theorem length_encode_mod : e.encode.length % 4 = 0 := by
  have := e.nameLen_bounds
  rw [e.length_encode]
  unfold padding headerSize
  omega

theorem flags_lt : e.flags < 2 ^ 7 := by
  unfold flags
  split <;> decide

/-- The bytes in front of the first NUL of a padded name are the name. -/
theorem takeWhile_paddedName : e.paddedName.takeWhile (· ≠ 0) = e.name := by
  have hlen := e.nameLen_bounds
  obtain ⟨k, hk⟩ : ∃ k, e.nameLen - e.name.length = k + 1 :=
    ⟨e.nameLen - e.name.length - 1, by omega⟩
  unfold paddedName
  rw [hk, List.replicate_succ, List.takeWhile_append_of_pos]
  · simp
  · intro b hb
    simp only [ne_eq, decide_eq_true_eq]
    rintro rfl
    exact e.nul_notMem hb

/-- The record is read back at its place in the image. -/
theorem readHeader_encode (a rest : List UInt8) :
    readHeader (a ++ (e.encode ++ rest)) a.length = .ok e.header := by
  have hlen := e.nameLen_bounds
  unfold encode
  rw [List.append_assoc,
    NeonRtFs.readHeader_encode a _ e.flags_lt (by omega) e.content_lt e.lenDecomp_lt]
  rfl

theorem readName_encode (a rest : List UInt8) :
    readName (a ++ (e.encode ++ rest)) (a.length + headerSize) e.header.nameLen = .ok e.name := by
  have hlen := e.nameLen_bounds
  have hsplit : a ++ (e.encode ++ rest) =
      (a ++ encodeHeader e.flags e.nameLen e.content.length e.lenDecomp) ++
        (e.paddedName ++ (e.paddedContent ++ rest)) := by
    unfold encode
    simp only [List.append_assoc]
  have hfront : (a ++ encodeHeader e.flags e.nameLen e.content.length e.lenDecomp).length =
      a.length + headerSize := by
    rw [List.length_append, length_encodeHeader]
  show readName _ ((a.length + headerSize : ℕ) : ℤ) (e.nameLen : ℤ) = _
  unfold readName
  rw [min_eq_right (by omega), ← e.length_paddedName, hsplit, ← hfront, readImg_middle]
  exact congrArg Except.ok e.takeWhile_paddedName

/-- The next record starts right behind this one. -/
theorem align4_next (p : ℕ) (hp : p % 4 = 0) :
    align4 (((p : ℤ) + headerSize) + (e.header.nameLen + e.header.fileLenComp)) =
      (p + e.encode.length : ℕ) := by
  have hlen := e.nameLen_bounds
  rw [e.length_encode]
  show align4 (((p : ℤ) + headerSize) + ((e.nameLen : ℤ) + (e.content.length : ℤ))) = _
  unfold align4 padding headerSize
  split <;> omega

end FsEntry

/-! ## Lookup -/

/-- Two names start alike: one is the start of the other. -/
def StartAlike (a b : List UInt8) : Prop := a <+: b ∨ b <+: a

instance (a b : List UInt8) : Decidable (StartAlike a b) := by
  unfold StartAlike
  infer_instance

theorem sameStart_iff (a b : List UInt8) : sameStart a b = true ↔ StartAlike a b := by
  unfold sameStart StartAlike
  simp only [decide_eq_true_eq]
  rcases Nat.le_total a.length b.length with hle | hle
  · rw [Nat.min_eq_left hle, List.take_length, ← List.prefix_iff_eq_take]
    refine ⟨Or.inl, fun h => h.elim id fun hb => ?_⟩
    rw [hb.eq_of_length (Nat.le_antisymm hb.length_le hle)]
  · rw [Nat.min_eq_right hle, List.take_length, eq_comm, ← List.prefix_iff_eq_take]
    refine ⟨Or.inr, fun h => h.elim (fun ha => ?_) id⟩
    rw [ha.eq_of_length (Nat.le_antisymm ha.length_le hle)]

/-- The first file whose name starts like the given one, as an open file; `p` is where the
records start. -/
def firstAlike (fileName : List UInt8) : ℕ → List FsEntry → Option NeonRtFsFile
  | _, [] => none
  | p, e :: files =>
    if StartAlike e.name fileName then some (e.handle p)
    else firstAlike fileName (p + e.encode.length) files

/-- The search through the records of an image. -/
theorem openLoop_encode (fileName a : List UInt8) (files : List FsEntry) (fuel : ℕ)
    (ha : a.length % 4 = 0) (hfuel : files.length < fuel) :
    openLoop (a ++ encodeImage files) fileName true fuel a.length =
      .ok (firstAlike fileName a.length files, true) := by
  induction files generalizing a fuel with
  | nil =>
    obtain ⟨fuel, rfl⟩ : ∃ k, fuel = k + 1 := ⟨fuel - 1, by simp at hfuel; omega⟩
    -- the header that ends the list
    have hread := readHeader_encode a [] (show 1 < 2 ^ 7 by norm_num)
      (show 0 < 2 ^ 15 by norm_num) (show 0 < 2 ^ 31 by norm_num) (show 0 < 2 ^ 31 by norm_num)
    rw [List.append_nil] at hread
    unfold openLoop
    show (readHeader (a ++ encodeHeader 1 0 0 0) a.length >>= _) = _
    rw [hread]
    rfl
  | cons e files ih =>
    obtain ⟨fuel, rfl⟩ : ∃ k, fuel = k + 1 := ⟨fuel - 1, by simp at hfuel; omega⟩
    have hsplit : encodeImage (e :: files) = e.encode ++ encodeImage files := by
      unfold encodeImage
      rw [List.flatMap_cons, List.append_assoc]
    have hflag : hasFlag e.header.flags flagLastfile = false := by
      show hasFlag (e.flags : ℤ) flagLastfile = false
      unfold FsEntry.flags
      split <;> rfl
    have hname := e.readName_encode a (encodeImage files)
    rw [hsplit]
    unfold openLoop firstAlike
    simp only [e.readHeader_encode, bind, Except.bind, pure, Except.pure, hflag, hname]
    rw [if_neg (by simp [FsEntry.header]), if_neg (by simp)]
    -- the name read is compared up to the shorter of the two
    by_cases hmatch : StartAlike e.name fileName
    · simp only [(sameStart_iff _ _).mpr hmatch, if_true, if_pos hmatch]
      rfl
    · have hfalse : sameStart e.name fileName = false :=
        Bool.eq_false_iff.mpr (mt (sameStart_iff _ _).mp hmatch)
      have hnext := ih (a ++ e.encode) fuel
        (by rw [List.length_append]; have := e.length_encode_mod; omega)
        (by simp at hfuel; omega)
      rw [List.append_assoc, List.length_append] at hnext
      simp only [hfalse, Bool.false_eq_true, if_false, if_neg hmatch]
      rw [e.align4_next a.length ha]
      exact hnext

/-- An image is longer than its number of files. -/
theorem length_lt_encodeImage (files : List FsEntry) : files.length < (encodeImage files).length + 1 := by
  induction files with
  | nil => simp
  | cons e files ih =>
    have : encodeImage (e :: files) = e.encode ++ encodeImage files := by
      unfold encodeImage
      rw [List.flatMap_cons, List.append_assoc]
    rw [this, List.length_append, e.length_encode, List.length_cons]
    unfold headerSize
    omega

/-- `NeonRtFsInit` accepts every image. -/
theorem neonRtFsInit_encodeImage (files : List FsEntry) (initDone : Bool) :
    neonRtFsInit (encodeImage files) initDone = .ok (.ok, true) := by
  cases files with
  | nil => rfl
  | cons e files =>
    have hread := e.readHeader_encode [] (encodeImage files)
    have hsplit : encodeImage (e :: files) = [] ++ (e.encode ++ encodeImage files) := by
      unfold encodeImage
      rw [List.flatMap_cons, List.nil_append, List.append_assoc]
    unfold neonRtFsInit
    rw [hsplit]
    show (readHeader _ ((([] : List UInt8).length : ℕ) : ℤ) >>= _) = _
    rw [hread]
    rfl

/-- `NeonRtFsOpen` opens the first file whose name starts like the requested one. -/
theorem neonRtFsOpen_encodeImage (files : List FsEntry) (fileName : List UInt8) :
    neonRtFsOpen (encodeImage files) true true fileName =
      .ok (firstAlike (stripSlashes fileName) 0 files, true) :=
  openLoop_encode (stripSlashes fileName) [] files _ rfl (length_lt_encodeImage files)

/-! ## Which file is opened -/

/-- Where a record starts in its image. -/
def recordStart (files : List FsEntry) (i : ℕ) : ℕ :=
  ((files.take i).flatMap FsEntry.encode).length

theorem recordStart_cons (e : FsEntry) (files : List FsEntry) (i : ℕ) :
    recordStart (e :: files) (i + 1) = e.encode.length + recordStart files i := by
  unfold recordStart
  rw [List.take_succ_cons, List.flatMap_cons, List.length_append]

/-- Either no name starts like the requested one, or the first that does is opened. -/
theorem firstAlike_cases (fileName : List UInt8) (p : ℕ) (files : List FsEntry) :
    ((∀ e ∈ files, ¬ StartAlike e.name fileName) ∧ firstAlike fileName p files = none) ∨
      ∃ (i : ℕ) (e : FsEntry), files[i]? = some e ∧ StartAlike e.name fileName ∧
        (∀ j < i, ∀ e', files[j]? = some e' → ¬ StartAlike e'.name fileName) ∧
        firstAlike fileName p files = some (e.handle (p + recordStart files i)) := by
  induction files generalizing p with
  | nil => exact Or.inl ⟨by simp, rfl⟩
  | cons e files ih =>
    unfold firstAlike
    by_cases hmatch : StartAlike e.name fileName
    · refine Or.inr ⟨0, e, rfl, hmatch, fun j hj => absurd hj (Nat.not_lt_zero j), ?_⟩
      rw [if_pos hmatch]
      rfl
    · rw [if_neg hmatch]
      rcases ih (p + e.encode.length) with ⟨hnone, heq⟩ | ⟨i, e', hi, hmatch', hfirst, heq⟩
      · refine Or.inl ⟨fun f hf => ?_, heq⟩
        rcases List.mem_cons.mp hf with rfl | hf
        · exact hmatch
        · exact hnone f hf
      · refine Or.inr ⟨i + 1, e', hi, hmatch', fun j hj f hf => ?_, ?_⟩
        · cases j with
          | zero => cases hf; exact hmatch
          | succ j => exact hfirst j (by omega) f hf
        · rw [heq, recordStart_cons, Nat.add_assoc]

/-- A later record starts behind an earlier one. -/
theorem recordStart_le {files : List FsEntry} {i j : ℕ} {e : FsEntry} (hi : files[i]? = some e)
    (hij : i < j) : recordStart files i + e.encode.length ≤ recordStart files j := by
  induction files generalizing i j with
  | nil => cases hi
  | cons f files ih =>
    obtain ⟨j, rfl⟩ : ∃ k, j = k + 1 := ⟨j - 1, by omega⟩
    rw [recordStart_cons]
    cases i with
    | zero =>
      cases hi
      show 0 + e.encode.length ≤ _
      omega
    | succ i =>
      have := ih (i := i) (j := j) hi (by omega)
      rw [recordStart_cons]
      omega

/-- The open file tells the record. -/
theorem index_eq_of_handle {files : List FsEntry} {i j : ℕ} {e f : FsEntry}
    (hi : files[i]? = some e) (hj : files[j]? = some f)
    (h : e.handle (recordStart files i) = f.handle (recordStart files j)) : i = j := by
  have hpos : recordStart files i + headerSize + e.nameLen =
      recordStart files j + headerSize + f.nameLen :=
    Int.ofNat_inj.mp (congrArg NeonRtFsFile.posStart h)
  have he := e.length_encode
  have hf := f.length_encode
  rcases Nat.lt_trichotomy i j with hlt | rfl | hlt
  · have := recordStart_le hi hlt
    have := f.nameLen_bounds
    omega
  · rfl
  · have := recordStart_le hj hlt
    have := e.nameLen_bounds
    omega

/-- What the open file refers to: the content of the record at its place in the image. -/
theorem readImg_handle {files : List FsEntry} {i : ℕ} {e : FsEntry} (hi : files[i]? = some e) :
    readImg (encodeImage files) (e.handle (recordStart files i)).posStart e.content.length =
      .ok e.content := by
  obtain ⟨hlt, heq⟩ := List.getElem?_eq_some_iff.mp hi
  have hfiles : files = files.take i ++ (e :: files.drop (i + 1)) := by
    rw [← heq, ← List.drop_eq_getElem_cons hlt, List.take_append_drop]
  have hsplit : encodeImage files =
      ((files.take i).flatMap FsEntry.encode ++
        (encodeHeader e.flags e.nameLen e.content.length e.lenDecomp ++ e.paddedName)) ++
        (e.content ++ (List.replicate (padding e.content.length) 0 ++
          ((files.drop (i + 1)).flatMap FsEntry.encode ++ closing))) := by
    conv_lhs => rw [hfiles]
    unfold encodeImage FsEntry.encode FsEntry.paddedContent
    simp only [List.flatMap_append, List.flatMap_cons, List.append_assoc]
  have hfront : ((files.take i).flatMap FsEntry.encode ++
      (encodeHeader e.flags e.nameLen e.content.length e.lenDecomp ++ e.paddedName)).length =
      recordStart files i + headerSize + e.nameLen := by
    unfold recordStart
    rw [List.length_append, List.length_append, length_encodeHeader, e.length_paddedName]
    omega
  show readImg _ ((recordStart files i + headerSize + e.nameLen : ℕ) : ℤ) _ = _
  rw [hsplit, ← hfront, readImg_middle]

/-- `NeonRtFsInit` on an image, and then `NeonRtFsOpen`. -/
def initAndOpen (img fileName : List UInt8) : Except Fault (Option NeonRtFsFile × Bool) := do
  let (_, initDone) ← neonRtFsInit img false
  neonRtFsOpen img initDone true fileName

/-- The result is the file with this name, or `NULL` if there is none. -/
def OpensNamed (files : List FsEntry) (name : List UInt8)
    (out : Except Fault (Option NeonRtFsFile × Bool)) : Prop :=
  ∃ fh initDone, out = .ok (fh, initDone) ∧
    (∀ (i : ℕ) (e : FsEntry), files[i]? = some e → e.name = name → fh = some (e.handle (recordStart files i))) ∧
    ((∀ e ∈ files, e.name ≠ name) → fh = none)

/-- No record in front of the one with this name has a name that starts like it, nor has any
record if there is none with this name; and the name itself does not start with a slash. -/
def FoundFirst (files : List FsEntry) (name : List UInt8) : Prop :=
  (∀ (i : ℕ) (e : FsEntry), files[i]? = some e → e.name = name →
    StartAlike e.name (stripSlashes name) ∧
      ∀ j < i, ∀ e', files[j]? = some e' → ¬ StartAlike e'.name (stripSlashes name)) ∧
  ((∀ e ∈ files, e.name ≠ name) → ∀ e ∈ files, ¬ StartAlike e.name (stripSlashes name))

theorem stripSlashes_replicate (k : ℕ) (name : List UInt8) :
    stripSlashes (List.replicate k 47 ++ name) = stripSlashes name := by
  induction k with
  | zero => rfl
  | succ k ih => exact ih

/-- The file that was asked for is opened if and only if it is the first one whose name starts
like the requested name, and none is opened if none starts so. -/
theorem opensNamed_iff (files : List FsEntry) (slashes : ℕ) (name : List UInt8) :
    OpensNamed files name
        (initAndOpen (encodeImage files) (List.replicate slashes 47 ++ name)) ↔
      FoundFirst files name := by
  have hopen : initAndOpen (encodeImage files) (List.replicate slashes 47 ++ name) =
      .ok (firstAlike (stripSlashes name) 0 files, true) := by
    unfold initAndOpen
    rw [neonRtFsInit_encodeImage]
    show neonRtFsOpen (encodeImage files) true true _ = _
    rw [neonRtFsOpen_encodeImage, stripSlashes_replicate]
  rw [hopen]
  unfold OpensNamed FoundFirst
  -- none of the names matches, or there is a first that does
  rcases firstAlike_cases (stripSlashes name) 0 files with
    ⟨hnone, heq⟩ | ⟨k, f, hk, hmatch, hfirst, heq⟩
  · rw [heq]
    constructor
    · rintro ⟨fh, initDone, hout, hnamed, -⟩
      cases hout
      refine ⟨fun i e hi hname => ?_, fun _ => hnone⟩
      cases hnamed i e hi hname
    · rintro ⟨hnamed, -⟩
      refine ⟨none, true, rfl, fun i e hi hname => ?_, fun _ => rfl⟩
      exact absurd (hnamed i e hi hname).1 (hnone e (List.mem_of_getElem? hi))
  · rw [heq, Nat.zero_add]
    have hmem := List.mem_of_getElem? hk
    constructor
    · rintro ⟨fh, initDone, hout, hnamed, hother⟩
      cases hout
      refine ⟨fun i e hi hname => ?_, fun hne => ?_⟩
      · obtain rfl := index_eq_of_handle hk hi (Option.some.inj (hnamed i e hi hname))
        cases hk.symm.trans hi
        exact ⟨hmatch, hfirst⟩
      · cases hother hne
    · rintro ⟨hnamed, hother⟩
      refine ⟨_, true, rfl, fun i e hi hname => ?_, fun hne => ?_⟩
      · obtain ⟨hmatch', hfirst'⟩ := hnamed i e hi hname
        -- both are first, so they are the same
        rcases Nat.lt_trichotomy k i with hlt | rfl | hlt
        · exact absurd hmatch (hfirst' k hlt f hk)
        · cases hk.symm.trans hi
          rfl
        · exact absurd hmatch' (hfirst i hlt e hi)
      · exact absurd hmatch (hother hne f hmem)

/-- A file `a.htm` in front of a file `a.html`. -/
def prefixNames : List FsEntry :=
  [{ name := ascii "a.htm", content := [1], gzip := false, lenDecomp := 1, name_ne := by decide,
     nul_notMem := by decide, name_le := by decide, content_lt := by decide,
     lenDecomp_lt := by decide },
   { name := ascii "a.html", content := [2], gzip := false, lenDecomp := 1, name_ne := by decide,
     nul_notMem := by decide, name_le := by decide, content_lt := by decide,
     lenDecomp_lt := by decide }]

/-- A request for `/a.html` opens `a.htm`. -/
theorem not_opensNamed_prefixNames :
    ¬ OpensNamed prefixNames (ascii "a.html")
      (initAndOpen (encodeImage prefixNames) (ascii "/a.html")) := by
  rintro ⟨fh, initDone, hout, hnamed, -⟩
  have hfh := hnamed 1 _ rfl rfl
  have hopen : initAndOpen (encodeImage prefixNames) (ascii "/a.html") =
      .ok (some ⟨⟨neonrtfsMagic, 0, 0, 8, 1, 1⟩, 0, 0, 24, 24⟩, true) := by decide +kernel
  rw [hopen] at hout
  cases hout
  revert hfh
  decide

end WLink.NeonRtFs
