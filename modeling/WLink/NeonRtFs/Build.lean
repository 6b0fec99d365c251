import WLink.Lib.Replace
import WLink.NeonRtFs.Walk

/-!
# The image after the build step

`generate_neonrtfs_bin` replaces the path of the HTML directory by nothing, wherever its bytes stand
in the image. `filesOf` lists the names and the contents of an image by the lengths that its records
hold, as `NeonRtFsOpen` goes through them. No length is corrected after the replacement, and a
record that is read too late is not found again further on (`filesFrom_late`); so the list is that of
the original files with the path taken from their names if and only if the path stands nowhere in the
image (`preserved_iff`).
-/

namespace WLink.NeonRtFs

open WLink.Lib

/-! ## The build step -/

/-- The byte can begin an absolute path: a separator, or the letter of a drive. -/
def IsRoot (b : UInt8) : Prop :=
  b = 47 ∨ b = 92 ∨ 65 ≤ b.toNat ∧ b.toNat ≤ 90 ∨ 97 ≤ b.toNat ∧ b.toNat ≤ 122

instance (b : UInt8) : Decidable (IsRoot b) := inferInstanceAs (Decidable (_ ∨ _))

/-- `HTML_DIR`: `html` in the project directory, which is an absolute path. -/
structure HtmlDir where
  bytes : List UInt8
  nul_notMem : 0 ∉ bytes
  absolute : ∃ b rest, bytes = b :: rest ∧ IsRoot b
  html : ascii "html" <:+ bytes

/-- `data.replace(old_path_bytes, new_path_bytes)` of `generate_neonrtfs_bin`. -/
def replacePath (dir : HtmlDir) (data : List UInt8) : List UInt8 := removeAll dir.bytes data

/-- The names and contents of the records from an offset to the one that closes the image; none if
a record does not lie in the image or is not one. -/
def filesFrom (img : List UInt8) : ℕ → ℤ → Option (List (List UInt8 × List UInt8))
  | 0, _ => none
  | fuel + 1, p => do
    let h ← (readHeader img p).toOption
    if h.magic ≠ neonrtfsMagic then none
    else if hasFlag h.flags flagLastfile then some []
    else
      let name ← (readName img (p + headerSize) h.nameLen).toOption
      let content ← (readImg img (p + headerSize + h.nameLen) h.fileLenComp).toOption
      let files ← filesFrom img fuel (align4 (p + headerSize + (h.nameLen + h.fileLenComp)))
      some ((name, content) :: files)

def filesOf (img : List UInt8) : Option (List (List UInt8 × List UInt8)) :=
  filesFrom img (img.length + 1) 0

/-- The name without the path, and the content as it is. -/
def FsEntry.relative (dir : HtmlDir) (e : FsEntry) : List UInt8 × List UInt8 :=
  (replacePath dir e.name, e.content)

/-- The files of the image after the build step are the original ones, under their relative
names. -/
def Preserved (dir : HtmlDir) (files : List FsEntry) : Prop :=
  filesOf (replacePath dir (encodeImage files)) = some (files.map (FsEntry.relative dir))

instance (dir : HtmlDir) (files : List FsEntry) : Decidable (Preserved dir files) :=
  inferInstanceAs (Decidable (_ = _))

/-! ## One record of the walk -/

section Walk

variable {img name content : List UInt8} {fuel : ℕ} {p : ℤ}
  {files : List (List UInt8 × List UInt8)}

theorem toOption_eq_some {ε α : Type} {x : Except ε α} {a : α} (h : x.toOption = some a) :
    x = .ok a := by
  cases x with
  | error e => exact absurd h nofun
  | ok b => exact congrArg Except.ok (Option.some.inj h)

/-- A walk that is over has come to a record in the image. -/
theorem filesFrom_eq_nil (h : filesFrom img fuel p = some []) : HeaderInside img p := by
  cases fuel with
  | zero => exact absurd h nofun
  | succ fuel =>
    unfold filesFrom at h
    obtain ⟨hdr, hread, -⟩ := Option.bind_eq_some_iff.mp h
    exact (readHeader_ok_iff.mp (toOption_eq_some hread)).1

/-- The record of the first file that a walk finds. -/
theorem filesFrom_eq_cons (h : filesFrom img fuel p = some ((name, content) :: files)) :
    HeaderInside img p ∧ (headerAt img p).magic = neonrtfsMagic ∧
      readName img (p + headerSize) (headerAt img p).nameLen = .ok name ∧
      readImg img (p + headerSize + (headerAt img p).nameLen) (headerAt img p).fileLenComp =
        .ok content ∧
      ∃ fuel', filesFrom img fuel' (nextRecord img p) = some files := by
  cases fuel with
  | zero => exact absurd h nofun
  | succ fuel =>
    unfold filesFrom at h
    obtain ⟨hdr, hread, h⟩ := Option.bind_eq_some_iff.mp h
    obtain ⟨hin, rfl⟩ := readHeader_ok_iff.mp (toOption_eq_some hread)
    split_ifs at h with hmagic hlast
    · exact absurd (Option.some.inj h) nofun
    · obtain ⟨name', hname, h⟩ := Option.bind_eq_some_iff.mp h
      obtain ⟨content', hcontent, h⟩ := Option.bind_eq_some_iff.mp h
      obtain ⟨files', hfiles, h⟩ := Option.bind_eq_some_iff.mp h
      have heq := Option.some.inj h
      cases heq
      exact ⟨hin, not_not.mp hmagic, toOption_eq_some hname, toOption_eq_some hcontent, fuel,
        hfiles⟩

theorem length_of_readImg {len : ℤ} (h : readImg img p len = .ok content) :
    (content.length : ℤ) = len := by
  unfold readImg at h
  split_ifs at h with hin
  have hcontent := Except.ok.inj h
  rw [← hcontent, List.length_take, List.length_drop]
  omega

theorem length_le_of_readName {len : ℤ} (h : readName img p len = .ok name) :
    (name.length : ℤ) ≤ len := by
  unfold readName at h
  obtain ⟨bs, hread⟩ : ∃ bs, readImg img p (min 256 len) = bs := ⟨_, rfl⟩
  rw [hread] at h
  cases bs with
  | error e => exact absurd h nofun
  | ok bs =>
    have hname : bs.takeWhile (· ≠ 0) = name := Except.ok.inj h
    have hlen := length_of_readImg hread
    have hle := (List.takeWhile_prefix (l := bs) (fun b => decide (b ≠ 0))).length_le
    rw [← hname]
    omega

theorem le_nextRecord (img : List UInt8) (p : ℤ) :
    p + headerSize + ((headerAt img p).nameLen + (headerAt img p).fileLenComp) ≤
      nextRecord img p := by
  unfold nextRecord align4
  split_ifs <;> omega

/-- A record begins with the first byte of the magic number. -/
theorem drop_of_magic (hin : HeaderInside img p) (h : (headerAt img p).magic = neonrtfsMagic) :
    ∃ rest, img.drop p.toNat = 0x45 :: rest := by
  obtain ⟨hpos, hlen⟩ := hin
  have hlong : headerSize ≤ (img.drop p.toNat).length := by
    rw [List.length_drop]
    omega
  unfold headerAt Header.ofBytes at h
  unfold headerSize at hlong h
  obtain ⟨bs, hbs⟩ : ∃ bs, img.drop p.toNat = bs := ⟨_, rfl⟩
  rw [hbs] at hlong h
  rcases bs with _ | ⟨b₀, _ | ⟨b₁, _ | ⟨b₂, _ | ⟨b₃, rest⟩⟩⟩⟩
  · exact absurd hlong (by decide)
  · exact absurd hlong (by decide : ¬ 16 ≤ 1)
  · exact absurd hlong (by decide : ¬ 16 ≤ 2)
  · exact absurd hlong (by decide : ¬ 16 ≤ 3)
  · have hmagic : toSigned 32 (ofLeBytes [b₀, b₁, b₂, b₃]) = 0x73665345 := h
    have hlt := b₀.toNat_lt
    have hlt' := ofLeBytes_lt [b₀, b₁, b₂, b₃]
    have hnat : b₀.toNat = 0x45 := by
      simp only [toSigned, ofLeBytes, List.length_cons, List.length_nil] at hmagic hlt'
      split_ifs at hmagic <;> omega
    have hb : b₀ = 0x45 := UInt8.toNat_inj.mp hnat
    exact ⟨b₁ :: b₂ :: b₃ :: rest, by rw [hbs, hb]⟩

end Walk

/-! ## The path and the headers -/

/-- The first eight bytes of a header: the magic number, the flags, the compression and the length
of the name. -/
def headFront (flags nameLen : ℕ) : List UInt8 :=
  0x45 :: 0x53 :: 0x66 :: 0x73 :: UInt8.ofNat (flags % 256) :: 0 :: leBytes 2 nameLen

theorem encodeHeader_eq (flags nameLen lenComp lenDecomp : ℕ) :
    encodeHeader flags nameLen lenComp lenDecomp =
      headFront flags nameLen ++ (leBytes 4 lenComp ++ leBytes 4 lenDecomp) := rfl

namespace HtmlDir

variable (dir : HtmlDir)

theorem ne_nil : dir.bytes ≠ [] := by
  obtain ⟨b, rest, h, -⟩ := dir.absolute
  rw [h]
  nofun

theorem four_le_length : 4 ≤ dir.bytes.length := dir.html.length_le

/-- Every end of the path has an `l` in it. -/
theorem l_mem_of_suffix {v : List UInt8} (hv : v ≠ []) (h : v <:+ dir.bytes) : 108 ∈ v := by
  obtain ⟨d, hd⟩ := dir.html
  obtain ⟨u, hu⟩ := h
  have hlast : (u ++ v).getLast? = some 108 := by
    rw [hu, ← hd]
    exact List.getLast?_append_of_ne_nil _ (by decide)
  rw [List.getLast?_append_of_ne_nil _ hv] at hlast
  exact List.mem_of_getLast? hlast

/-- No end of the path begins in front of a NUL that comes before any `l`. -/
theorem not_prefix_sep {v front : List UInt8} (hv : v ≠ []) (h : v <:+ dir.bytes)
    (hfront : 108 ∉ front) (rest : List UInt8) : ¬ v <+: front ++ 0 :: rest := by
  intro hp
  have hnul : 0 ∉ v := fun hmem => dir.nul_notMem (h.subset hmem)
  have hpre := (prefix_append_sep hnul).mp hp
  exact hfront (hpre.subset (dir.l_mem_of_suffix hv h))

/-- The bytes of a length of a name: the second is zero, or the first is and the second one is. -/
theorem not_prefix_nameLen {nameLen : ℕ} (hle : nameLen ≤ 256) (rest : List UInt8) :
    ¬ dir.bytes <+: leBytes 2 nameLen ++ rest ∧
      ¬ dir.bytes <+: (leBytes 2 nameLen).drop 1 ++ rest := by
  obtain ⟨b, tail, hbytes, hroot⟩ := dir.absolute
  have hnul := dir.nul_notMem
  have hlong := dir.four_le_length
  rcases Nat.lt_or_eq_of_le hle with hlt | rfl
  · have hhigh : nameLen / 256 % 256 = 0 := by omega
    have hbytes' : leBytes 2 nameLen = [UInt8.ofNat (nameLen % 256), 0] := by
      unfold leBytes leBytes
      rw [hhigh]
      rfl
    rw [hbytes']
    constructor
    · intro hp
      have hpre : dir.bytes <+: [UInt8.ofNat (nameLen % 256)] :=
        (prefix_append_sep hnul).mp hp
      have hle := hpre.length_le
      rw [List.length_singleton] at hle
      omega
    · intro hp
      have hpre : dir.bytes <+: [] := (prefix_append_sep (a := []) hnul).mp hp
      exact dir.ne_nil (List.prefix_nil.mp hpre)
  · have hbytes' : leBytes 2 256 = [0, 1] := rfl
    rw [hbytes']
    constructor
    · intro hp
      have hpre : dir.bytes <+: [] := (prefix_append_sep (a := []) hnul).mp hp
      exact dir.ne_nil (List.prefix_nil.mp hpre)
    · intro hp
      have hp' : b :: tail <+: 1 :: rest := hbytes ▸ hp
      have hb : b = 1 := (List.cons_prefix_cons.mp hp').1
      rw [hb] at hroot
      exact absurd hroot (by decide)

theorem flags_ne {flags : ℕ} (h : flags ≤ 2) : UInt8.ofNat (flags % 256) ≠ 108 := by
  obtain rfl | rfl | rfl : flags = 0 ∨ flags = 1 ∨ flags = 2 := by omega
  all_goals decide

/-- The path does not begin within the front of a header. -/
theorem removeAll_headFront {flags nameLen : ℕ} (hflags : flags ≤ 2) (hname : nameLen ≤ 256)
    (rest : List UInt8) :
    removeAll dir.bytes (headFront flags nameLen ++ rest) =
      headFront flags nameLen ++ removeAll dir.bytes rest := by
  have hself : dir.bytes <:+ dir.bytes := List.suffix_refl _
  have hf : (108 : UInt8) ≠ UInt8.ofNat (flags % 256) := (flags_ne hflags).symm
  obtain ⟨hlow, hhigh⟩ := dir.not_prefix_nameLen hname rest
  have hsep (front : List UInt8) (hfront : 108 ∉ front) (tail : List UInt8) :=
    dir.not_prefix_sep dir.ne_nil hself hfront tail
  refine removeAll_append_intact fun i hi => ?_
  have hi' : i < 8 := hi
  match i, hi' with
  | 0, _ => exact hsep [0x45, 0x53, 0x66, 0x73, _] (by simp [hf]) _
  | 1, _ => exact hsep [0x53, 0x66, 0x73, _] (by simp [hf]) _
  | 2, _ => exact hsep [0x66, 0x73, _] (by simp [hf]) _
  | 3, _ => exact hsep [0x73, _] (by simp [hf]) _
  | 4, _ => exact hsep [_] (by simp [hf]) _
  | 5, _ => exact hsep [] List.not_mem_nil _
  | 6, _ => exact hlow
  | 7, _ => exact hhigh

/-- The path does not cross from one record to the next. -/
theorem removeAll_append_headFront {flags nameLen : ℕ} (hflags : flags ≤ 2) (front : List UInt8)
    (rest : List UInt8) :
    removeAll dir.bytes (front ++ (headFront flags nameLen ++ rest)) =
      removeAll dir.bytes front ++ removeAll dir.bytes (headFront flags nameLen ++ rest) := by
  have hf : (108 : UInt8) ≠ UInt8.ofNat (flags % 256) := (flags_ne hflags).symm
  refine removeAll_append_of_no_straddle dir.ne_nil (fun v hv hsuffix => ?_) front
  have hfront : 108 ∉ [0x45, 0x53, 0x66, 0x73, UInt8.ofNat (flags % 256)] := by simp [hf]
  exact dir.not_prefix_sep hv hsuffix hfront _

theorem removeAll_closing : removeAll dir.bytes closing = closing := by
  have hzeros : ¬ dir.bytes <:+: List.replicate 8 0 := by
    intro h
    obtain ⟨b, rest, hbytes, -⟩ := dir.absolute
    have hb : b ∈ dir.bytes := by
      rw [hbytes]
      exact List.mem_cons_self
    exact dir.nul_notMem (List.eq_of_mem_replicate (h.subset hb) ▸ hb)
  have hfront := @removeAll_headFront dir 1 0 (by decide) (by decide) (List.replicate 8 0)
  rw [removeAll_of_absent hzeros] at hfront
  exact hfront

end HtmlDir

/-! ## The records without the path -/

namespace FsEntry

variable (e : FsEntry) (dir : HtmlDir)

/-- What follows the front of the header of a record. -/
def body : List UInt8 :=
  leBytes 4 e.content.length ++ leBytes 4 e.lenDecomp ++ (e.paddedName ++ e.paddedContent)

theorem encode_eq : e.encode = headFront e.flags e.nameLen ++ e.body := by
  unfold encode body
  rw [encodeHeader_eq]
  simp only [List.append_assoc]

theorem flags_le : e.flags ≤ 2 := by
  unfold flags
  split <;> decide

theorem removeAll_encode :
    removeAll dir.bytes e.encode =
      headFront e.flags e.nameLen ++ removeAll dir.bytes e.body := by
  rw [e.encode_eq]
  exact dir.removeAll_headFront e.flags_le e.nameLen_bounds.2.1 e.body

/-- A record gets shorter by what its name loses, by what else is removed, and at most by the
padding. -/
theorem length_removeAll_encode :
    (removeAll dir.bytes e.encode).length ≤
      headerSize + (removeAll dir.bytes e.name).length + e.content.length + 7 := by
  have hname := e.name_le
  have hpad : padding e.content.length ≤ 3 := by
    unfold padding
    omega
  have hzeros : e.nameLen - e.name.length ≤ 4 := by
    unfold nameLen padding
    omega
  have hbody : e.body = (leBytes 4 e.content.length ++ leBytes 4 e.lenDecomp) ++
      (e.name ++ (List.replicate (e.nameLen - e.name.length) 0 ++ e.paddedContent)) := by
    unfold body paddedName
    rw [List.append_assoc e.name]
  have hfront := length_removeAll_prepend_le dir.ne_nil
    (leBytes 4 e.content.length ++ leBytes 4 e.lenDecomp)
    (e.name ++ (List.replicate (e.nameLen - e.name.length) 0 ++ e.paddedContent))
  have hrest := length_removeAll_append_le dir.ne_nil e.name
    (List.replicate (e.nameLen - e.name.length) 0 ++ e.paddedContent)
  rw [List.length_append, List.length_replicate, e.length_paddedContent] at hrest
  rw [List.length_append, length_leBytes, length_leBytes] at hfront
  rw [e.removeAll_encode dir, List.length_append, hbody]
  have height : (headFront e.flags e.nameLen).length = 8 := rfl
  unfold headerSize
  omega

end FsEntry

theorem encodeImage_cons (e : FsEntry) (files : List FsEntry) :
    encodeImage (e :: files) = e.encode ++ encodeImage files := by
  unfold encodeImage
  rw [List.flatMap_cons, List.append_assoc]

/-- An image begins with the front of a header. -/
theorem encodeImage_front (files : List FsEntry) :
    ∃ flags nameLen rest, flags ≤ 2 ∧ encodeImage files = headFront flags nameLen ++ rest := by
  cases files with
  | nil => exact ⟨1, 0, List.replicate 8 0, by decide, rfl⟩
  | cons e files =>
    refine ⟨e.flags, e.nameLen, e.body ++ encodeImage files, e.flags_le, ?_⟩
    rw [encodeImage_cons, e.encode_eq, List.append_assoc]

theorem removeAll_encodeImage_cons (dir : HtmlDir) (e : FsEntry) (files : List FsEntry) :
    removeAll dir.bytes (encodeImage (e :: files)) =
      removeAll dir.bytes e.encode ++ removeAll dir.bytes (encodeImage files) := by
  obtain ⟨flags, nameLen, rest, hflags, hfront⟩ := encodeImage_front files
  rw [encodeImage_cons, hfront]
  exact dir.removeAll_append_headFront hflags e.encode rest

/-! ## A walk over a shortened image -/

variable (dir : HtmlDir)

/-- In a record the magic number begins only at its start, as far as the front of the header
reaches. -/
theorem headFront_drop {flags nameLen : ℕ} (hflags : flags ≤ 2) (hname : nameLen ≤ 256)
    (hmod : nameLen % 4 = 0) {i : ℕ} (hpos : 0 < i) (hi : i < 8) (rest rest' : List UInt8) :
    (headFront flags nameLen ++ rest).drop i ≠ 0x45 :: rest' := by
  have hlow : UInt8.ofNat (nameLen % 256) ≠ 0x45 := by
    intro h
    have hnat : (UInt8.ofNat (nameLen % 256)).toNat = 0x45 := congrArg UInt8.toNat h
    rw [UInt8.toNat_ofNat', Nat.mod_mod] at hnat
    omega
  have hhigh : UInt8.ofNat (nameLen / 256 % 256) ≠ 0x45 := by
    obtain h | h : nameLen / 256 % 256 = 0 ∨ nameLen / 256 % 256 = 1 := by omega
    all_goals
      rw [h]
      decide
  have hf : UInt8.ofNat (flags % 256) ≠ 0x45 := by
    obtain rfl | rfl | rfl : flags = 0 ∨ flags = 1 ∨ flags = 2 := by omega
    all_goals decide
  intro heq
  match i, hpos, hi with
  | 1, _, _ => exact absurd (List.cons.inj heq).1 (by decide)
  | 2, _, _ => exact absurd (List.cons.inj heq).1 (by decide)
  | 3, _, _ => exact absurd (List.cons.inj heq).1 (by decide)
  | 4, _, _ => exact hf (List.cons.inj heq).1
  | 5, _, _ => exact absurd (List.cons.inj heq).1 (by decide)
  | 6, _, _ => exact hlow (List.cons.inj heq).1
  | 7, _, _ => exact hhigh (List.cons.inj heq).1

/-- A walk that comes to a record too late does not catch up: what it skips is at most the padding
of the records, and behind the start of a header it finds none. -/
theorem filesFrom_late (files : List FsEntry) (front : List UInt8) (fuel : ℕ) (p : ℤ)
    (hp : front.length < p) :
    filesFrom (front ++ removeAll dir.bytes (encodeImage files)) fuel p ≠
      some (files.map (FsEntry.relative dir)) := by
  induction files generalizing front fuel p with
  | nil =>
    intro h
    obtain ⟨-, hlen⟩ := filesFrom_eq_nil h
    have hclosing : encodeImage [] = closing := rfl
    have hsize : closing.length = headerSize := rfl
    rw [hclosing, dir.removeAll_closing, List.length_append, hsize] at hlen
    omega
  | cons e files ih =>
    intro h
    have hsplit : front ++ removeAll dir.bytes (encodeImage (e :: files)) =
        (front ++ removeAll dir.bytes e.encode) ++ removeAll dir.bytes (encodeImage files) := by
      rw [removeAll_encodeImage_cons, List.append_assoc]
    obtain ⟨hin, hmagic, hname, hcontent, fuel', hrest⟩ := filesFrom_eq_cons h
    obtain ⟨rest, hdrop⟩ := drop_of_magic hin hmagic
    obtain ⟨i, hi⟩ : ∃ i : ℕ, p.toNat = front.length + i :=
      ⟨p.toNat - front.length, by omega⟩
    -- the header is not read within the front of the real one
    have hfar : 8 ≤ i := by
      by_contra hnear
      rw [hi, removeAll_encodeImage_cons, e.removeAll_encode dir, List.append_assoc,
        List.drop_length_add_append] at hdrop
      exact headFront_drop e.flags_le e.nameLen_bounds.2.1 e.nameLen_bounds.2.2 (by omega)
        (by omega) _ _ hdrop
    have hnameLen : ((removeAll dir.bytes e.name).length : ℤ) ≤ _ := length_le_of_readName hname
    have hcontentLen := length_of_readImg hcontent
    have hshort := e.length_removeAll_encode dir
    have hnext := le_nextRecord (front ++ removeAll dir.bytes (encodeImage (e :: files))) p
    refine ih (front ++ removeAll dir.bytes e.encode) fuel'
      (nextRecord (front ++ removeAll dir.bytes (encodeImage (e :: files))) p) ?_ ?_
    · rw [List.length_append]
      omega
    · rw [← hsplit]
      exact hrest

/-! ## Which images are preserved -/

/-- The header in front of a body is read with its length of the name. -/
theorem headerAt_headFront (front : List UInt8) (flags nameLen : ℕ) (hname : nameLen ≤ 256)
    (rest : List UInt8) :
    (headerAt (front ++ (headFront flags nameLen ++ rest)) front.length).nameLen = nameLen := by
  have hbytes : (((headFront flags nameLen ++ rest).take headerSize).drop 6).take 2 =
      leBytes 2 nameLen := rfl
  unfold headerAt Header.ofBytes
  rw [Int.toNat_natCast, List.drop_left, hbytes, ofLeBytes_leBytes,
    Nat.mod_eq_of_lt (show nameLen < 256 ^ 2 by omega),
    toSigned_of_lt (show nameLen < 2 ^ (16 - 1) by omega)]

/-- A path that stands somewhere in the rest of an image is removed, and then the record behind is
read too late. -/
theorem not_infix_of_filesFrom (files : List FsEntry) (front : List UInt8) (fuel : ℕ)
    (hfront : front.length % 4 = 0)
    (h : filesFrom (front ++ removeAll dir.bytes (encodeImage files)) fuel front.length =
      some (files.map (FsEntry.relative dir))) : ¬ dir.bytes <:+: encodeImage files := by
  induction files generalizing front fuel with
  | nil =>
    intro hinfix
    have hlt := length_removeAll_lt dir.ne_nil hinfix
    have hclosing : removeAll dir.bytes (encodeImage []) = encodeImage [] := dir.removeAll_closing
    rw [hclosing] at hlt
    omega
  | cons e files ih =>
    have hsplit : front ++ removeAll dir.bytes (encodeImage (e :: files)) =
        (front ++ removeAll dir.bytes e.encode) ++ removeAll dir.bytes (encodeImage files) := by
      rw [removeAll_encodeImage_cons, List.append_assoc]
    have hheader : (headerAt (front ++ removeAll dir.bytes (encodeImage (e :: files)))
        front.length).nameLen = e.nameLen := by
      rw [removeAll_encodeImage_cons, e.removeAll_encode dir, List.append_assoc]
      exact headerAt_headFront front e.flags e.nameLen e.nameLen_bounds.2.1 _
    obtain ⟨-, -, -, hcontent, fuel', hrest⟩ := filesFrom_eq_cons h
    have hcontentLen := length_of_readImg hcontent
    have hnext : nextRecord (front ++ removeAll dir.bytes (encodeImage (e :: files)))
        front.length = ((front.length + e.encode.length : ℕ) : ℤ) := by
      rw [← e.align4_next front.length hfront]
      unfold nextRecord
      rw [hheader, ← hcontentLen]
      rfl
    rw [hnext, hsplit] at hrest
    by_cases hencode : dir.bytes <:+: e.encode
    · -- the record is shorter than its lengths say
      have hlt := length_removeAll_lt dir.ne_nil hencode
      refine absurd hrest (filesFrom_late dir files _ fuel' _ ?_)
      rw [List.length_append]
      omega
    · have hsame := removeAll_of_absent hencode
      have hmod := e.length_encode_mod
      rw [hsame, ← List.length_append] at hrest
      have hfiles := ih (front ++ e.encode) fuel' (by rw [List.length_append]; omega) hrest
      intro hinfix
      have hlt := length_removeAll_lt dir.ne_nil hinfix
      rw [removeAll_encodeImage_cons, hsame, removeAll_of_absent hfiles, encodeImage_cons] at hlt
      omega

/-- The content is read behind the name. -/
theorem FsEntry.readContent_encode (e : FsEntry) (front rest : List UInt8) :
    readImg (front ++ (e.encode ++ rest)) (front.length + headerSize + e.header.nameLen)
      e.header.fileLenComp = .ok e.content := by
  have hsplit : front ++ (e.encode ++ rest) =
      (front ++ (encodeHeader e.flags e.nameLen e.content.length e.lenDecomp ++ e.paddedName)) ++
        (e.content ++ (List.replicate (padding e.content.length) 0 ++ rest)) := by
    unfold FsEntry.encode FsEntry.paddedContent
    simp only [List.append_assoc]
  have hlen : (front ++ (encodeHeader e.flags e.nameLen e.content.length e.lenDecomp ++
      e.paddedName)).length = front.length + headerSize + e.nameLen := by
    rw [List.length_append, List.length_append, length_encodeHeader, e.length_paddedName]
    omega
  have hmiddle := readImg_middle
    (front ++ (encodeHeader e.flags e.nameLen e.content.length e.lenDecomp ++ e.paddedName))
    e.content (List.replicate (padding e.content.length) 0 ++ rest)
  rw [← hsplit, hlen] at hmiddle
  exact hmiddle

/-- An image is walked record by record. -/
theorem filesFrom_encodeImage (files : List FsEntry) (front : List UInt8) (fuel : ℕ)
    (hfront : front.length % 4 = 0) (hfuel : files.length < fuel) :
    filesFrom (front ++ encodeImage files) fuel front.length =
      some (files.map fun e => (e.name, e.content)) := by
  induction files generalizing front fuel with
  | nil =>
    obtain ⟨fuel, rfl⟩ := Nat.exists_eq_succ_of_ne_zero (Nat.ne_of_gt (Nat.zero_lt_of_lt hfuel))
    have hread := readHeader_encode front [] (show 1 < 2 ^ 7 by decide)
      (show 0 < 2 ^ 15 by decide) (show 0 < 2 ^ 31 by decide) (show 0 < 2 ^ 31 by decide)
    rw [List.append_nil] at hread
    have hclosing : encodeImage [] = encodeHeader 1 0 0 0 := rfl
    unfold filesFrom
    rw [hclosing, hread]
    rfl
  | cons e files ih =>
    obtain ⟨fuel, rfl⟩ := Nat.exists_eq_succ_of_ne_zero (Nat.ne_of_gt (Nat.zero_lt_of_lt hfuel))
    have hflag : hasFlag e.header.flags flagLastfile = false := by
      show hasFlag (e.flags : ℤ) flagLastfile = false
      unfold FsEntry.flags
      split <;> rfl
    have hread := e.readHeader_encode front (encodeImage files)
    have hname := e.readName_encode front (encodeImage files)
    have hcontent := e.readContent_encode front (encodeImage files)
    have hnext := ih (front ++ e.encode) fuel
      (by rw [List.length_append]; have := e.length_encode_mod; omega)
      (Nat.lt_of_succ_lt_succ hfuel)
    rw [List.append_assoc, List.length_append] at hnext
    rw [encodeImage_cons]
    unfold filesFrom
    simp only [hread, hname, hcontent, Except.toOption, Option.bind_eq_bind, Option.bind_some,
      hflag, e.align4_next front.length hfront, hnext]
    rfl

theorem preserved_of_absent {files : List FsEntry} (h : ¬ dir.bytes <:+: encodeImage files) :
    Preserved dir files := by
  have hnames : ∀ e ∈ files, FsEntry.relative dir e = (e.name, e.content) := by
    intro e he
    have hin : e.name <:+: encodeImage files := by
      refine (List.infix_append' (encodeHeader e.flags e.nameLen e.content.length e.lenDecomp)
        e.name (List.replicate (e.nameLen - e.name.length) 0 ++ e.paddedContent)).trans ?_
      have hrecord : e.encode <:+: files.flatMap FsEntry.encode :=
        List.infix_of_mem_flatten (List.mem_map_of_mem he)
      refine List.IsInfix.trans ?_ (hrecord.trans (List.prefix_append _ closing).isInfix)
      unfold FsEntry.encode FsEntry.paddedName
      simp only [List.append_assoc]
      exact List.infix_refl _
    have hname : removeAll dir.bytes e.name = e.name :=
      removeAll_of_absent fun hp => h (hp.trans hin)
    show (removeAll dir.bytes e.name, e.content) = _
    rw [hname]
  have hwalk := filesFrom_encodeImage files [] ((encodeImage files).length + 1) rfl
    (length_lt_encodeImage files)
  unfold Preserved filesOf replacePath
  rw [removeAll_of_absent h, List.map_congr_left hnames]
  exact hwalk

theorem Preserved.absent {files : List FsEntry} (h : Preserved dir files) :
    ¬ dir.bytes <:+: encodeImage files :=
  not_infix_of_filesFrom dir files [] _ rfl h

/-- The build step keeps the files of an image and makes their names relative if and only if the
path of the directory stands nowhere in the image. -/
theorem preserved_iff (dir : HtmlDir) (files : List FsEntry) :
    Preserved dir files ↔ ¬ dir.bytes <:+: encodeImage files :=
  ⟨Preserved.absent dir, preserved_of_absent dir⟩

/-- The directory `/w/html`. -/
def exampleDir : HtmlDir where
  bytes := ascii "/w/html"
  nul_notMem := by decide
  absolute := ⟨47, ascii "w/html", rfl, .inl rfl⟩
  html := ⟨ascii "/w/", rfl⟩

/-- A page that is stored under its absolute path. -/
def absoluteNames : List FsEntry :=
  [{ name := ascii "/w/html/a.html", content := ascii "page", gzip := false, lenDecomp := 4,
     name_ne := by decide, nul_notMem := by decide, name_le := by decide,
     content_lt := by decide, lenDecomp_lt := by decide }]

/-- The length of the name is still that of the absolute path. -/
theorem not_preserved_absoluteNames : ¬ Preserved exampleDir absoluteNames := by
  decide +kernel

end WLink.NeonRtFs
