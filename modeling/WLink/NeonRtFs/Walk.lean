import WLink.Lib.Iterate
import WLink.NeonRtFs.Image
import Mathlib.Data.Int.Interval

/-!
# The walk over the records of an image

`NeonRtFsOpen` goes from record to record by the lengths that the records themselves hold, and
nothing compares its pointer with the length of the image. `recordAt img i` is the offset that
it reaches after `i` records whatever they hold; the file is looked up inside the image if and
only if this walk comes to a record that ends it and every record in front of it lies in the
image (`finishesInside_iff`). An image that is built from files is walked to its end
(`finishesInside_encodeImage`), one whose only record leads back to itself forever.
-/

namespace WLink.NeonRtFs

open WLink.Lib

/-- The header at an offset. -/
def headerAt (img : List UInt8) (p : ℤ) : Header :=
  Header.ofBytes ((img.drop p.toNat).take headerSize)

/-- The name behind the header at an offset. -/
def nameAt (img : List UInt8) (p : ℤ) : List UInt8 :=
  ((img.drop (p + headerSize).toNat).take (min 256 (headerAt img p).nameLen).toNat).takeWhile
    (· ≠ 0)

/-- The offset that the lengths of the record at an offset lead to. -/
def nextRecord (img : List UInt8) (p : ℤ) : ℤ :=
  align4 (p + headerSize + ((headerAt img p).nameLen + (headerAt img p).fileLenComp))

/-- The offset of the `i`-th record. -/
def recordAt (img : List UInt8) (i : ℕ) : ℤ := (nextRecord img)^[i] 0

def HeaderInside (img : List UInt8) (p : ℤ) : Prop := 0 ≤ p ∧ p + headerSize ≤ img.length

/-- The part of the name that is copied lies in the image. -/
def NameInside (img : List UInt8) (p : ℤ) : Prop :=
  0 ≤ (headerAt img p).nameLen ∧
    p + headerSize + min 256 (headerAt img p).nameLen ≤ img.length

/-- The record is not one of a file. -/
def Closes (img : List UInt8) (p : ℤ) : Prop :=
  (headerAt img p).magic ≠ neonrtfsMagic ∨ hasFlag (headerAt img p).flags flagLastfile = true

/-- The search for a name is over at the record: it is not one of a file, or its name starts
like the one that is looked for. -/
def EndsAt (img fileName : List UInt8) (p : ℤ) : Prop :=
  HeaderInside img p ∧
    (Closes img p ∨ (NameInside img p ∧ sameStart (nameAt img p) fileName = true))

/-- Some record ends the search, and each record in front of it lies in the image with its
header and its name. -/
def WalkInside (img fileName : List UInt8) : Prop :=
  ∃ k, EndsAt img fileName (recordAt img k) ∧
    ∀ i < k, HeaderInside img (recordAt img i) ∧ NameInside img (recordAt img i)

/-- The search ends, and every byte that it reads is one of the image. -/
def FinishesInside (img fileName : List UInt8) : Prop :=
  ∀ mallocOk, ∃ result, neonRtFsOpen img true mallocOk fileName = .ok result

/-! ## One record -/

theorem readHeader_ok_iff {img : List UInt8} {p : ℤ} {h : Header} :
    readHeader img p = .ok h ↔ HeaderInside img p ∧ h = headerAt img p := by
  unfold readHeader readImg HeaderInside headerAt
  split
  · next hin =>
    simp only [Except.map, Except.ok.injEq, Int.toNat_natCast]
    constructor
    · rintro rfl
      exact ⟨⟨hin.1, hin.2.2⟩, rfl⟩
    · rintro ⟨-, rfl⟩
      rfl
  · next hout =>
    simp only [Except.map, reduceCtorEq, false_iff]
    rintro ⟨⟨hp, hlen⟩, -⟩
    exact hout ⟨hp, by unfold headerSize; omega, hlen⟩

theorem readName_ok_iff {img : List UInt8} {p : ℤ} {name : List UInt8} (hp : HeaderInside img p) :
    readName img (p + headerSize) (headerAt img p).nameLen = .ok name ↔
      NameInside img p ∧ name = nameAt img p := by
  obtain ⟨hpos, -⟩ := hp
  have hsize : (0 : ℤ) ≤ headerSize := by
    unfold headerSize
    omega
  unfold readName readImg NameInside nameAt
  split
  · next hin =>
    simp only [Except.map, Except.ok.injEq]
    constructor
    · rintro rfl
      exact ⟨⟨by omega, hin.2.2⟩, rfl⟩
    · rintro ⟨-, rfl⟩
      rfl
  · next hout =>
    simp only [Except.map, reduceCtorEq, false_iff]
    rintro ⟨⟨hlen, hin⟩, -⟩
    exact hout ⟨by omega, by omega, hin⟩

/-- What one round of the loop does: it is over at this record, or it goes on with the next one
and the record lies in the image. -/
theorem openLoop_succ_ok {img fileName : List UInt8} {mallocOk : Bool} {fuel : ℕ} {p : ℤ}
    {result : Option NeonRtFsFile × Bool}
    (h : openLoop img fileName mallocOk (fuel + 1) p = .ok result) :
    EndsAt img fileName p ∨
      (HeaderInside img p ∧ NameInside img p ∧
        openLoop img fileName mallocOk fuel (nextRecord img p) = .ok result) := by
  unfold openLoop at h
  rcases hread : readHeader img p with e | hdr
  · rw [hread] at h
    cases h
  · obtain ⟨hin, rfl⟩ := readHeader_ok_iff.mp hread
    rw [hread] at h
    dsimp only [Bind.bind, Except.bind] at h
    by_cases hmagic : (headerAt img p).magic ≠ neonrtfsMagic
    · exact .inl ⟨hin, .inl (.inl hmagic)⟩
    by_cases hlast : hasFlag (headerAt img p).flags flagLastfile = true
    · exact .inl ⟨hin, .inl (.inr hlast)⟩
    rw [if_neg hmagic, if_neg hlast] at h
    rcases hname : readName img (p + headerSize) (headerAt img p).nameLen with e | name
    · rw [hname] at h
      cases h
    · obtain ⟨hnameIn, rfl⟩ := (readName_ok_iff hin).mp hname
      rw [hname] at h
      dsimp only at h
      by_cases hsame : sameStart (nameAt img p) fileName = true
      · exact .inl ⟨hin, .inr ⟨hnameIn, hsame⟩⟩
      · rw [if_neg hsame] at h
        exact .inr ⟨hin, hnameIn, h⟩

/-- A record that ends the search does so without another round. -/
theorem openLoop_of_endsAt {img fileName : List UInt8} {p : ℤ} (mallocOk : Bool) (fuel : ℕ)
    (h : EndsAt img fileName p) :
    ∃ result, openLoop img fileName mallocOk (fuel + 1) p = .ok result := by
  obtain ⟨hin, hend⟩ := h
  have hread := readHeader_ok_iff.mpr ⟨hin, rfl⟩
  unfold openLoop
  rw [hread]
  dsimp only [Bind.bind, Except.bind]
  by_cases hmagic : (headerAt img p).magic ≠ neonrtfsMagic
  · exact ⟨_, if_pos hmagic⟩
  by_cases hlast : hasFlag (headerAt img p).flags flagLastfile = true
  · exact ⟨_, by rw [if_neg hmagic, if_pos hlast]; rfl⟩
  rcases hend with (hne | hyes) | ⟨hnameIn, hsame⟩
  · exact absurd hne hmagic
  · exact absurd hyes hlast
  · rw [if_neg hmagic, if_neg hlast, (readName_ok_iff hin).mpr ⟨hnameIn, rfl⟩]
    exact ⟨_, if_pos hsame⟩

/-- A record in the image that does not end the search leads to the next one. -/
theorem openLoop_of_inside {img fileName : List UInt8} {p : ℤ} (mallocOk : Bool) (fuel : ℕ)
    (hend : ¬ EndsAt img fileName p) (hin : HeaderInside img p) (hnameIn : NameInside img p) :
    openLoop img fileName mallocOk (fuel + 1) p =
      openLoop img fileName mallocOk fuel (nextRecord img p) := by
  have hread := readHeader_ok_iff.mpr ⟨hin, rfl⟩
  have hmagic : ¬ (headerAt img p).magic ≠ neonrtfsMagic := fun hne => hend ⟨hin, .inl (.inl hne)⟩
  have hlast : ¬ hasFlag (headerAt img p).flags flagLastfile = true :=
    fun hyes => hend ⟨hin, .inl (.inr hyes)⟩
  have hsame : ¬ sameStart (nameAt img p) fileName = true :=
    fun hyes => hend ⟨hin, .inr ⟨hnameIn, hyes⟩⟩
  conv_lhs => unfold openLoop
  rw [hread]
  dsimp only [Bind.bind, Except.bind]
  rw [if_neg hmagic, if_neg hlast, (readName_ok_iff hin).mpr ⟨hnameIn, rfl⟩]
  exact if_neg hsame

/-! ## The whole walk -/

/-- A search that ends from `p` on has walked to a record that ends it. -/
theorem walk_of_openLoop {img fileName : List UInt8} {mallocOk : Bool} {fuel : ℕ} {p : ℤ}
    {result : Option NeonRtFsFile × Bool}
    (h : openLoop img fileName mallocOk fuel p = .ok result) :
    ∃ k, EndsAt img fileName ((nextRecord img)^[k] p) ∧
      ∀ i < k, HeaderInside img ((nextRecord img)^[i] p) ∧
        NameInside img ((nextRecord img)^[i] p) := by
  induction fuel generalizing p with
  | zero => cases h
  | succ fuel ih =>
    rcases openLoop_succ_ok h with hend | ⟨hin, hnameIn, hrest⟩
    · exact ⟨0, hend, fun i hi => absurd hi (Nat.not_lt_zero i)⟩
    · obtain ⟨k, hend, hfront⟩ := ih hrest
      refine ⟨k + 1, hend, fun i hi => ?_⟩
      cases i with
      | zero => exact ⟨hin, hnameIn⟩
      | succ i => exact hfront i (Nat.lt_of_succ_lt_succ hi)

/-- A walk of `k` records to the first one that ends the search takes `k + 1` rounds. -/
theorem openLoop_of_walk {img fileName : List UInt8} (mallocOk : Bool) {k fuel : ℕ} {p : ℤ}
    (hfuel : k < fuel) (hend : EndsAt img fileName ((nextRecord img)^[k] p))
    (hfirst : ∀ i < k, ¬ EndsAt img fileName ((nextRecord img)^[i] p))
    (hfront : ∀ i < k, HeaderInside img ((nextRecord img)^[i] p) ∧
      NameInside img ((nextRecord img)^[i] p)) :
    ∃ result, openLoop img fileName mallocOk fuel p = .ok result := by
  induction k generalizing fuel p with
  | zero =>
    obtain ⟨fuel, rfl⟩ := Nat.exists_eq_succ_of_ne_zero (Nat.ne_of_gt hfuel)
    exact openLoop_of_endsAt mallocOk fuel hend
  | succ k ih =>
    obtain ⟨fuel, rfl⟩ := Nat.exists_eq_succ_of_ne_zero (Nat.ne_of_gt (Nat.zero_lt_of_lt hfuel))
    have hpos := Nat.zero_lt_succ k
    obtain ⟨hin, hnameIn⟩ := hfront 0 hpos
    have hround := openLoop_of_inside mallocOk fuel (hfirst 0 hpos) hin hnameIn
    rw [Function.iterate_zero_apply] at hround
    rw [hround]
    exact ih (Nat.lt_of_succ_lt_succ hfuel) hend
      (fun i hi => hfirst (i + 1) (Nat.succ_lt_succ hi))
      (fun i hi => hfront (i + 1) (Nat.succ_lt_succ hi))

/-- The bound on the rounds is no restriction: a walk that stays in the image and ends has not
been at the same offset twice. -/
theorem walk_lt_length {img fileName : List UInt8} {k : ℕ}
    (hend : EndsAt img fileName (recordAt img k))
    (hfirst : ∀ i < k, ¬ EndsAt img fileName (recordAt img i))
    (hfront : ∀ i < k, HeaderInside img (recordAt img i)) : k < img.length + 1 := by
  have hcard := first_lt_card (Finset.Ico (0 : ℤ) img.length) hend hfirst (fun i hi => by
    have hin : HeaderInside img (recordAt img i) := by
      rcases Nat.lt_or_eq_of_le hi with hlt | rfl
      · exact hfront i hlt
      · exact hend.1
    obtain ⟨hpos, hlen⟩ := hin
    unfold headerSize at hlen
    exact Finset.mem_Ico.mpr ⟨hpos, by
      show recordAt img i < _
      omega⟩)
  rw [Int.card_Ico] at hcard
  omega

theorem finishesInside_of_walk {img fileName : List UInt8}
    (h : WalkInside img (stripSlashes fileName)) : FinishesInside img fileName := by
  obtain ⟨k, hend, hfront⟩ := h
  intro mallocOk
  classical
  have hex : ∃ k, EndsAt img (stripSlashes fileName) (recordAt img k) := ⟨k, hend⟩
  have hle : Nat.find hex ≤ k := Nat.find_min' hex hend
  have hbefore := fun i (hi : i < Nat.find hex) => hfront i (hi.trans_le hle)
  exact openLoop_of_walk mallocOk
    (walk_lt_length (Nat.find_spec hex) (fun i hi => Nat.find_min hex hi)
      (fun i hi => (hbefore i hi).1))
    (Nat.find_spec hex) (fun i hi => Nat.find_min hex hi) hbefore

theorem FinishesInside.walk {img fileName : List UInt8} (h : FinishesInside img fileName) :
    WalkInside img (stripSlashes fileName) := by
  obtain ⟨result, hopen⟩ := h true
  exact walk_of_openLoop hopen

/-- A file is looked up inside of the image, and the search ends, if and only if the walk over
the records comes to one that ends it and stays in the image until then. -/
theorem finishesInside_iff (img fileName : List UInt8) :
    FinishesInside img fileName ↔ WalkInside img (stripSlashes fileName) :=
  ⟨FinishesInside.walk, finishesInside_of_walk⟩

/-- An image that is built from files is never left. -/
theorem finishesInside_encodeImage (files : List FsEntry) (fileName : List UInt8) :
    FinishesInside (encodeImage files) fileName :=
  finishesInside_of_walk (walk_of_openLoop (neonRtFsOpen_encodeImage files fileName))

/-- One record whose lengths lead back to it. -/
def loopingImage : List UInt8 := encodeHeader 0 4 (2 ^ 32 - 20) 0 ++ [97, 0, 0, 0]

/-- The image is accepted, and the search for `b` goes round in it forever. -/
theorem not_finishesInside_loopingImage :
    neonRtFsInit loopingImage false = .ok (.ok, true) ∧
      ¬ FinishesInside loopingImage (ascii "b") := by
  refine ⟨by decide, fun h => ?_⟩
  obtain ⟨k, hend, -⟩ := h.walk
  have hstays : recordAt loopingImage k = 0 :=
    Function.iterate_fixed (show nextRecord loopingImage 0 = 0 by decide) k
  rw [hstays] at hend
  revert hend
  unfold EndsAt Closes HeaderInside NameInside
  decide

end WLink.NeonRtFs
