import WLink.Lib.Links
import WLink.Lib.Tiling
import WLink.Rtos.Heap4

/-!
# The books of the heap

`Books L h cs` says that the chunks `cs` cut the heap up, and that the headers in the memory and the
list of free blocks are as they should be for them. `pvPortMalloc` takes the first free chunk that
is large enough and `vPortFree` joins a chunk with its free neighbours (`freeChunk`), and the books
are in order again (`takeBlock_eq`, `prvInsertBlockIntoFreeList_eq`). Neither touches a used chunk.
-/

namespace WLink.Rtos.Heap4

open Lib

variable {L : Layout} {mem mem' : ℕ → UInt8} {p q v : ℕ}

/-! ## Headers -/

/-- An address that a header can have. -/
def Layout.Header (L : Layout) (p : ℕ) : Prop :=
  p = L.xStart ∨ L.ucHeap ≤ p ∧ p + 8 ≤ L.ucHeap + L.totalHeapSize ∧ p % 8 = 0

theorem header_xStart : L.Header L.xStart := .inl rfl

/-- Two headers do not overlap. -/
theorem header_apart (hp : L.Header p) (hq : L.Header q) (hne : p ≠ q) : p + 8 ≤ q ∨ q + 8 ≤ p := by
  have hapart := L.apart
  rcases hp with rfl | hp <;> rcases hq with rfl | hq
  · exact absurd rfl hne
  · omega
  · omega
  · omega

theorem header_lt (hp : L.Header p) : p < 2 ^ 32 := by
  have hstart := L.start
  have hheap := L.heap
  rcases hp with rfl | hp
  · omega
  · omega

theorem next_setNext (hp : L.Header p) (hq : L.Header q) (hv : v < 2 ^ 32) :
    next (setNext mem p v) q = if q = p then v else next mem q := by
  unfold next setNext
  split_ifs with heq
  · rw [heq, loadNat_storeNat]
    exact Nat.mod_eq_of_lt hv
  · have hapart := header_apart hq hp heq
    exact loadNat_storeNat_of_apart (by omega)

theorem blockSize_setNext (hp : L.Header p) (hq : L.Header q) :
    blockSize (setNext mem p v) q = blockSize mem q := by
  unfold blockSize setNext
  rcases eq_or_ne q p with rfl | hne
  · exact loadNat_storeNat_of_apart (.inr (Nat.le_refl _))
  · have hapart := header_apart hq hp hne
    exact loadNat_storeNat_of_apart (by omega)

theorem next_setBlockSize (hp : L.Header p) (hq : L.Header q) :
    next (setBlockSize mem p v) q = next mem q := by
  unfold next setBlockSize
  rcases eq_or_ne q p with rfl | hne
  · exact loadNat_storeNat_of_apart (.inl (Nat.le_refl _))
  · have hapart := header_apart hq hp hne
    exact loadNat_storeNat_of_apart (by omega)

theorem blockSize_setBlockSize (hp : L.Header p) (hq : L.Header q) (hv : v < 2 ^ 32) :
    blockSize (setBlockSize mem p v) q = if q = p then v else blockSize mem q := by
  unfold blockSize setBlockSize
  split_ifs with heq
  · rw [heq, loadNat_storeNat]
    exact Nat.mod_eq_of_lt hv
  · have hapart := header_apart hq hp heq
    exact loadNat_storeNat_of_apart (by omega)

/-- A store to a header leaves what is beside it. -/
theorem setNext_of_outside {x : ℕ} (h : x < p ∨ p + 8 ≤ x) : setNext mem p v x = mem x :=
  storeNat_of_outside (by omega)

theorem setBlockSize_of_outside {x : ℕ} (h : x < p ∨ p + 8 ≤ x) : setBlockSize mem p v x = mem x :=
  storeNat_of_outside (by omega)

/-! ## The layout -/

/-- The blocks lie between `startAddress` and `endAddress`, which are aligned and inside `ucHeap`. -/
theorem Layout.addresses (L : Layout) :
    L.startAddress % 8 = 0 ∧ L.endAddress % 8 = 0 ∧ L.ucHeap ≤ L.startAddress ∧
      L.startAddress + 8 ≤ L.endAddress ∧ L.endAddress + 8 ≤ L.ucHeap + L.totalHeapSize := by
  have hroom := L.room
  unfold endAddress startAddress heapStructSize
  split_ifs with haligned
  · omega
  · omega

theorem header_of_bounds (hstart : L.startAddress ≤ p) (hend : p ≤ L.endAddress)
    (haligned : p % 8 = 0) : L.Header p := by
  obtain ⟨-, -, hlow, -, hhigh⟩ := L.addresses
  exact .inr ⟨by omega, by omega, haligned⟩

theorem header_endAddress : L.Header L.endAddress := by
  obtain ⟨-, haligned, -, hle, -⟩ := L.addresses
  exact header_of_bounds (by omega) (Nat.le_refl _) haligned

theorem configAssert_of {P : Prop} [Decidable P] (h : P) : configAssert P = .ok () := if_pos h

theorem validate_of (hstart : L.startAddress ≤ p) (hend : p ≤ L.endAddress) :
    validate L p = .ok () := by
  obtain ⟨-, -, hlow, -, hhigh⟩ := L.addresses
  exact configAssert_of ⟨by omega, by omega⟩

/-! ## The loops -/

/-- The free blocks in the memory: they are linked from `p` to the end, with their sizes. -/
structure FreeList (L : Layout) (mem : ℕ → UInt8) (p : ℕ) (fs : List Chunk) : Prop where
  path : Path (next mem) p (fs.map Chunk.addr ++ [L.endAddress])
  size : ∀ f ∈ fs, blockSize mem f.addr = f.size
  inside : ∀ f ∈ fs, L.startAddress ≤ f.addr ∧ f.addr ≤ L.endAddress
  last : next mem L.endAddress = 0

theorem FreeList.tail {f : Chunk} {fs : List Chunk} (h : FreeList L mem p (f :: fs)) :
    FreeList L mem f.addr fs :=
  ⟨h.path.2, fun g hg => h.size g (List.mem_cons_of_mem f hg),
    fun g hg => h.inside g (List.mem_cons_of_mem f hg), h.last⟩

/-- What a free block or `xStart` links to lies in the heap. -/
theorem FreeList.next_inside {fs : List Chunk} (h : FreeList L mem p fs) :
    L.startAddress ≤ next mem p ∧ next mem p ≤ L.endAddress := by
  obtain ⟨-, -, -, hle, -⟩ := L.addresses
  cases fs with
  | nil =>
    rw [h.path.1]
    omega
  | cons f fs =>
    rw [h.path.1]
    exact h.inside f List.mem_cons_self

/-- The last of the free blocks, or where the list begins. -/
def lastAddr (p : ℕ) (fs : List Chunk) : ℕ := (fs.map Chunk.addr).getLastD p

@[simp] theorem lastAddr_nil : lastAddr p [] = p := rfl

@[simp] theorem lastAddr_cons {f : Chunk} {fs : List Chunk} :
    lastAddr p (f :: fs) = lastAddr f.addr fs := List.getLastD_cons ..

/-- The loop of `pvPortMalloc` stops behind the blocks that are too small. -/
theorem findBlock_eq {fuel : ℕ} {fs : List Chunk} (h : FreeList L mem p fs) (wanted : ℕ)
    (hfuel : fs.length < fuel) : findBlock L mem wanted fuel p (next mem p) =
      .ok (lastAddr p (fs.takeWhile (·.size < wanted)),
        next mem (lastAddr p (fs.takeWhile (·.size < wanted)))) := by
  obtain ⟨-, -, hlow, -, -⟩ := L.addresses
  have hheap := L.heap
  induction fs generalizing p fuel with
  | nil =>
    obtain ⟨fuel, rfl⟩ := Nat.exists_eq_add_of_lt hfuel
    have hend : next mem p = L.endAddress := h.path.1
    have hstop : ¬ (blockSize mem (next mem p) < wanted ∧ next mem (next mem p) ≠ 0) := by
      rw [hend]
      exact fun hgo => hgo.2 h.last
    unfold findBlock
    exact if_neg hstop
  | cons f fs ih =>
    obtain ⟨fuel, rfl⟩ := Nat.exists_eq_add_of_lt hfuel
    have haddr : next mem p = f.addr := h.path.1
    have hsize := h.size f List.mem_cons_self
    obtain ⟨hin, hin'⟩ := h.tail.next_inside
    have hne : next mem f.addr ≠ 0 := by omega
    unfold findBlock
    rw [haddr, hsize]
    by_cases hsmall : f.size < wanted
    · have htake : (f :: fs).takeWhile (·.size < wanted) = f :: fs.takeWhile (·.size < wanted) :=
        List.takeWhile_cons_of_pos (decide_eq_true hsmall)
      rw [if_pos ⟨hsmall, hne⟩, validate_of hin hin', htake, lastAddr_cons]
      exact ih h.tail (by rw [List.length_cons]; omega)
    · have htake : (f :: fs).takeWhile (·.size < wanted) = [] :=
        List.takeWhile_cons_of_neg (by rwa [decide_eq_true_iff])
      rw [if_neg fun hgo => hsmall hgo.1, htake, lastAddr_nil, haddr]

/-- The loop of `prvInsertBlockIntoFreeList` stops behind the blocks in front of the address. -/
theorem findPlace_eq {block fuel : ℕ} {fs : List Chunk} (h : FreeList L mem p fs)
    (hblock : block ≤ L.endAddress) (hfuel : fs.length < fuel) :
    findPlace mem block fuel p = .ok (lastAddr p (fs.takeWhile (·.addr < block))) := by
  induction fs generalizing p fuel with
  | nil =>
    obtain ⟨fuel, rfl⟩ := Nat.exists_eq_add_of_lt hfuel
    have hend : next mem p = L.endAddress := h.path.1
    unfold findPlace
    rw [hend]
    exact if_neg (Nat.not_lt_of_le hblock)
  | cons f fs ih =>
    obtain ⟨fuel, rfl⟩ := Nat.exists_eq_add_of_lt hfuel
    have haddr : next mem p = f.addr := h.path.1
    unfold findPlace
    rw [haddr]
    by_cases hbefore : f.addr < block
    · have htake : (f :: fs).takeWhile (·.addr < block) = f :: fs.takeWhile (·.addr < block) :=
        List.takeWhile_cons_of_pos (decide_eq_true hbefore)
      rw [if_pos hbefore, htake, lastAddr_cons]
      exact ih h.tail (by rw [List.length_cons]; omega)
    · have htake : (f :: fs).takeWhile (·.addr < block) = [] :=
        List.takeWhile_cons_of_neg (by rwa [decide_eq_true_iff])
      rw [if_neg hbefore, htake, lastAddr_nil]

/-! ## Changing one header -/

/-- One header has been written anew. -/
structure Rewritten (L : Layout) (mem mem' : ℕ → UInt8) (p nx size : ℕ) : Prop where
  next_self : next mem' p = nx
  size_self : blockSize mem' p = size
  next_of_ne : ∀ q, L.Header q → q ≠ p → next mem' q = next mem q
  size_of_ne : ∀ q, L.Header q → q ≠ p → blockSize mem' q = blockSize mem q
  outside : ∀ x, x < p ∨ p + 8 ≤ x → mem' x = mem x

/-- A header as it is. -/
theorem rewritten_refl (mem : ℕ → UInt8) (p : ℕ) :
    Rewritten L mem mem p (next mem p) (blockSize mem p) :=
  ⟨rfl, rfl, fun _ _ _ => rfl, fun _ _ _ => rfl, fun _ _ => rfl⟩

theorem Rewritten.setNext {nx size : ℕ} (h : Rewritten L mem mem' p nx size) (hp : L.Header p)
    (hv : v < 2 ^ 32) : Rewritten L mem (setNext mem' p v) p v size where
  next_self := by rw [next_setNext hp hp hv, if_pos rfl]
  size_self := by rw [blockSize_setNext hp hp, h.size_self]
  next_of_ne q hq hne := by rw [next_setNext hp hq hv, if_neg hne, h.next_of_ne q hq hne]
  size_of_ne q hq hne := by rw [blockSize_setNext hp hq, h.size_of_ne q hq hne]
  outside x hx := by rw [setNext_of_outside hx, h.outside x hx]

theorem Rewritten.setBlockSize {nx size : ℕ} (h : Rewritten L mem mem' p nx size)
    (hp : L.Header p) (hv : v < 2 ^ 32) : Rewritten L mem (setBlockSize mem' p v) p nx v where
  next_self := by rw [next_setBlockSize hp hp, h.next_self]
  size_self := by rw [blockSize_setBlockSize hp hp hv, if_pos rfl]
  next_of_ne q hq hne := by rw [next_setBlockSize hp hq, h.next_of_ne q hq hne]
  size_of_ne q hq hne := by
    rw [blockSize_setBlockSize hp hq hv, if_neg hne, h.size_of_ne q hq hne]
  outside x hx := by rw [setBlockSize_of_outside hx, h.outside x hx]

/-- A list of free blocks, or what is behind its first link, where the headers are the same. -/
theorem FreeList.transport {fs : List Chunk} (h : FreeList L mem p fs)
    (hlink : next mem' q = next mem p)
    (hnext : ∀ a ∈ fs.map Chunk.addr ++ [L.endAddress], next mem' a = next mem a)
    (hsize : ∀ f ∈ fs, blockSize mem' f.addr = blockSize mem f.addr) : FreeList L mem' q fs where
  path := by
    have hpath := h.path
    cases fs with
    | nil => exact ⟨hlink.trans hpath.1, trivial⟩
    | cons f fs => exact ⟨hlink.trans hpath.1, hpath.2.congr hnext⟩
  size f hf := (hsize f hf).trans (h.size f hf)
  inside := h.inside
  last := (hnext _ (List.mem_append_right _ List.mem_cons_self)).trans h.last

/-- A list of free blocks does not notice a header that is not in it. -/
theorem FreeList.congr {fs : List Chunk} (h : FreeList L mem p fs)
    (hnext : ∀ q ∈ p :: (fs.map Chunk.addr ++ [L.endAddress]), next mem' q = next mem q)
    (hsize : ∀ f ∈ fs, blockSize mem' f.addr = blockSize mem f.addr) : FreeList L mem' p fs :=
  h.transport (hnext p List.mem_cons_self) (fun a ha => hnext a (List.mem_cons_of_mem p ha)) hsize

theorem freeList_append {as bs : List Chunk} : FreeList L mem p (as ++ bs) ↔
    Path (next mem) p (as.map Chunk.addr) ∧ (∀ f ∈ as, blockSize mem f.addr = f.size) ∧
      (∀ f ∈ as, L.startAddress ≤ f.addr ∧ f.addr ≤ L.endAddress) ∧
      FreeList L mem (lastAddr p as) bs := by
  constructor
  · intro h
    have hpath := h.path
    rw [List.map_append, List.append_assoc, path_append] at hpath
    exact ⟨hpath.1, fun f hf => h.size f (List.mem_append_left bs hf),
      fun f hf => h.inside f (List.mem_append_left bs hf), hpath.2,
      fun f hf => h.size f (List.mem_append_right as hf),
      fun f hf => h.inside f (List.mem_append_right as hf), h.last⟩
  · rintro ⟨hpath, hsize, hinside, hbs⟩
    refine ⟨?_, fun f hf => ?_, fun f hf => ?_, hbs.last⟩
    · rw [List.map_append, List.append_assoc, path_append]
      exact ⟨hpath, hbs.path⟩
    · rcases List.mem_append.mp hf with hf | hf
      · exact hsize f hf
      · exact hbs.size f hf
    · rcases List.mem_append.mp hf with hf | hf
      · exact hinside f hf
      · exact hbs.inside f hf

/-- A free block in front of a list. -/
theorem freeList_cons {f : Chunk} {fs : List Chunk} : FreeList L mem p (f :: fs) ↔
    next mem p = f.addr ∧ blockSize mem f.addr = f.size ∧
      (L.startAddress ≤ f.addr ∧ f.addr ≤ L.endAddress) ∧ FreeList L mem f.addr fs := by
  constructor
  · intro h
    exact ⟨h.path.1, h.size f List.mem_cons_self, h.inside f List.mem_cons_self, h.tail⟩
  · rintro ⟨hnext, hsize, hinside, h⟩
    exact ⟨⟨hnext, h.path⟩, List.forall_mem_cons.mpr ⟨hsize, h.size⟩,
      List.forall_mem_cons.mpr ⟨hinside, h.inside⟩, h.last⟩

/-- A list is changed behind some of its blocks. -/
theorem FreeList.relink {as bs bs' : List Chunk} (h : FreeList L mem p (as ++ bs))
    (hnodup : (p :: as.map Chunk.addr).Nodup)
    (hnext : ∀ q ∈ p :: as.map Chunk.addr, q ≠ lastAddr p as → next mem' q = next mem q)
    (hsize : ∀ f ∈ as, blockSize mem' f.addr = blockSize mem f.addr)
    (htail : FreeList L mem' (lastAddr p as) bs') : FreeList L mem' p (as ++ bs') := by
  obtain ⟨hpath, hsizes, hinside, -⟩ := freeList_append.mp h
  exact freeList_append.mpr ⟨hpath.keep hnodup hnext, fun f hf => (hsize f hf).trans (hsizes f hf),
    hinside, htail⟩

/-! ## The books -/

/-- The headers of the chunks, and the list of free blocks. -/
structure Headers (L : Layout) (mem : ℕ → UInt8) (cs : List Chunk) : Prop where
  tiles : Tiles L.startAddress cs L.endAddress
  aligned : ∀ c ∈ cs, c.addr % 8 = 0 ∧ c.size % 8 = 0
  allocated : ∀ c ∈ cs, c.used = true →
    next mem c.addr = 0 ∧ blockSize mem c.addr = c.size + allocatedBitmask
  freeList : FreeList L mem L.xStart (frees cs)
  start : blockSize mem L.xStart = 0

section

variable {cs pre post : List Chunk} {c d : Chunk}

theorem header_of_mem (htiles : Tiles L.startAddress cs L.endAddress)
    (haligned : ∀ c ∈ cs, c.addr % 8 = 0 ∧ c.size % 8 = 0) (hc : c ∈ cs) : L.Header c.addr := by
  obtain ⟨hlow, hpos, hhigh⟩ := htiles.bounds hc
  unfold Chunk.stop at hhigh
  exact header_of_bounds hlow (by omega) (haligned c hc).1

theorem xStart_ne (htiles : Tiles L.startAddress cs L.endAddress) (hc : c ∈ cs) :
    L.xStart ≠ c.addr := by
  obtain ⟨-, -, hlow, -, hhigh⟩ := L.addresses
  obtain ⟨hlow', hpos, hhigh'⟩ := htiles.bounds hc
  have hapart := L.apart
  unfold Chunk.stop at hhigh'
  omega

theorem xStart_ne_endAddress : L.xStart ≠ L.endAddress := by
  obtain ⟨-, -, hlow, hle, hhigh⟩ := L.addresses
  have hapart := L.apart
  omega

/-- The places of `xStart`, of the chunks and of the mark at the end all differ. -/
theorem nodup_addrs (htiles : Tiles L.startAddress cs L.endAddress) :
    (L.xStart :: cs.map Chunk.addr).Nodup := by
  refine List.nodup_cons.mpr ⟨?_, ?_⟩
  · intro hmem
    obtain ⟨c, hc, heq⟩ := List.mem_map.mp hmem
    exact xStart_ne htiles hc heq.symm
  · refine List.pairwise_map.mpr (htiles.pairwise.imp_of_mem fun hc hd hle => ?_)
    have hpos := (htiles.bounds hc).2.1
    unfold Chunk.stop at hle
    omega

theorem length_frees_lt (htiles : Tiles L.startAddress cs L.endAddress) :
    (frees cs).length < L.totalHeapSize + 1 := by
  obtain ⟨-, -, hlow, -, hhigh⟩ := L.addresses
  have hle : ∀ cs : List Chunk, (∀ c ∈ cs, 0 < c.size) → cs.length ≤ sizes cs := by
    intro cs hpos
    induction cs with
    | nil => exact Nat.le_refl _
    | cons c cs ih =>
      have hc := hpos c List.mem_cons_self
      have htail := ih fun d hd => hpos d (List.mem_cons_of_mem c hd)
      rw [List.length_cons, sizes_cons]
      omega
  have hlength := hle cs fun c hc => (htiles.bounds hc).2.1
  have hstop := htiles.stop_eq
  have hfilter : (frees cs).length ≤ cs.length := List.length_filter_le _ _
  omega

theorem lastAddr_cases (p : ℕ) (fs : List Chunk) :
    lastAddr p fs = p ∨ ∃ f ∈ fs, lastAddr p fs = f.addr := by
  rcases List.mem_cons.mp (getLastD_mem_cons p (fs.map Chunk.addr)) with h | h
  · exact .inl h
  · obtain ⟨f, hf, heq⟩ := List.mem_map.mp h
    exact .inr ⟨f, hf, heq.symm⟩

@[simp] theorem lastAddr_concat (p : ℕ) (fs : List Chunk) (f : Chunk) :
    lastAddr p (fs ++ [f]) = f.addr := by
  unfold lastAddr
  rw [List.map_append, List.map_singleton, List.getLastD_concat]

/-- What is in a chunk is in no header of another. -/
theorem outside_header (hh : Headers L mem cs) (hc : c ∈ cs) (hd : d ∈ cs) (hne : c ≠ d) {x : ℕ}
    (hx : d.addr ≤ x) (hx' : x < d.stop) : x < c.addr ∨ c.addr + 8 ≤ x := by
  have hapart := hh.tiles.apart hc hd
  have hpos := (hh.tiles.bounds hc).2.1
  have haligned := (hh.aligned c hc).2
  unfold Chunk.stop at hapart hx'
  rcases hapart.resolve_left hne with h | h
  · exact .inr (by omega)
  · exact .inl (by omega)

theorem outside_xStart (hh : Headers L mem cs) (hd : d ∈ cs) {x : ℕ} (hx : d.addr ≤ x)
    (hx' : x < d.stop) : x < L.xStart ∨ L.xStart + 8 ≤ x := by
  obtain ⟨-, -, hlow, -, hhigh⟩ := L.addresses
  obtain ⟨hlow', -, hhigh'⟩ := hh.tiles.bounds hd
  have hapart := L.apart
  omega

/-! ## Freeing -/

/-- The list of free blocks goes on behind a header that links to where it went on before. -/
theorem FreeList.moved {fs : List Chunk} {t size : ℕ} (h : FreeList L mem p fs)
    (hr : Rewritten L mem mem' t (next mem p) size) (hheader : ∀ f ∈ fs, L.Header f.addr)
    (hne : ∀ f ∈ fs, f.addr ≠ t) (hend : L.endAddress ≠ t) : FreeList L mem' t fs := by
  refine h.transport hr.next_self (fun a ha => ?_) fun f hf =>
    hr.size_of_ne _ (hheader f hf) (hne f hf)
  rcases List.mem_append.mp ha with ha | ha
  · obtain ⟨f, hf, rfl⟩ := List.mem_map.mp ha
    exact hr.next_of_ne _ (hheader f hf) (hne f hf)
  · rw [List.mem_singleton.mp ha]
    exact hr.next_of_ne _ header_endAddress hend

/-- The free chunks in front of a chunk are those with a lower address. -/
theorem takeWhile_frees (htiles : Tiles L.startAddress (pre ++ c :: post) L.endAddress) :
    (frees pre ++ frees post).takeWhile (·.addr < c.addr) = frees pre := by
  have hbefore : ∀ f ∈ frees pre, decide (f.addr < c.addr) = true := by
    intro f hf
    have hpos := (htiles.bounds (List.mem_append_left _ (mem_frees.mp hf).1)).2.1
    have hle := htiles.before (mem_frees.mp hf).1
    unfold Chunk.stop at hle
    exact decide_eq_true (by omega)
  rw [List.takeWhile_append_of_pos hbefore]
  have hnone : (frees post).takeWhile (·.addr < c.addr) = [] := by
    cases hpost : frees post with
    | nil => rfl
    | cons f fs =>
      have hf : f ∈ post := (mem_frees.mp (by rw [hpost]; exact List.mem_cons_self)).1
      have hle := ((tiles_middle.mp htiles).2.2.bounds hf).1
      unfold Chunk.stop at hle
      exact List.takeWhile_cons_of_neg (by rw [decide_eq_true_iff]; omega)
  rw [hnone, List.append_nil]

/-- The block is joined with the chunk in front of it exactly if that is free. -/
theorem joinFront_eq (htiles : Tiles L.startAddress (pre ++ c :: post) L.endAddress)
    (haligned : ∀ d ∈ pre ++ c :: post, d.addr % 8 = 0 ∧ d.size % 8 = 0)
    (hsize : ∀ f ∈ frees pre, blockSize mem f.addr = f.size) (hstart : blockSize mem L.xStart = 0)
    (hc : blockSize mem c.addr = c.size) :
    ∃ mem', joinFront mem (lastAddr L.xStart (frees pre)) c.addr = ((joinLeft pre c).2.addr, mem') ∧
      Rewritten L mem mem' (joinLeft pre c).2.addr (next mem (joinLeft pre c).2.addr)
        (joinLeft pre c).2.size := by
  have hheader := fun {d : Chunk} (hd : d ∈ pre ++ c :: post) => header_of_mem htiles haligned hd
  have hcpos := (htiles.bounds (List.mem_append_right pre List.mem_cons_self)).2.1
  -- a free block that does not touch the chunk
  have happart : ∀ {b : Chunk} {pre' : List Chunk}, pre = pre' ++ [b] → b.used = true →
      lastAddr L.xStart (frees pre) + blockSize mem (lastAddr L.xStart (frees pre)) ≠ c.addr := by
    rintro b pre' rfl hb
    have hbpos := (htiles.bounds (List.mem_append_left _ (List.mem_append_right pre'
      List.mem_cons_self))).2.1
    have hbstop : b.stop ≤ c.addr := htiles.before (List.mem_append_right pre' List.mem_cons_self)
    rcases lastAddr_cases L.xStart (frees (pre' ++ [b])) with h | ⟨f, hf, h⟩
    · rw [h, hstart]
      exact xStart_ne htiles (List.mem_append_right _ List.mem_cons_self)
    · rw [h, hsize f hf]
      rw [frees_append, frees_cons_of_used hb, frees_nil, List.append_nil] at hf
      rw [List.append_assoc, List.singleton_append] at htiles
      have hfstop : f.stop ≤ b.addr := htiles.before (mem_frees.mp hf).1
      unfold Chunk.stop at hbstop hfstop
      omega
  unfold joinFront
  rcases front_cases pre with rfl | ⟨pre, b, rfl, hb⟩ | ⟨pre, b, rfl, hb⟩
  · have hne : ¬ L.xStart + blockSize mem L.xStart = c.addr := by
      rw [hstart]
      exact xStart_ne htiles List.mem_cons_self
    rw [joinLeft_nil, frees_nil, lastAddr_nil, if_neg hne]
    refine ⟨mem, rfl, ?_⟩
    have hsame := rewritten_refl (L := L) mem c.addr
    rwa [hc] at hsame
  · rw [joinLeft_of_used hb, if_neg (happart rfl hb)]
    refine ⟨mem, rfl, ?_⟩
    have hsame := rewritten_refl (L := L) mem c.addr
    rwa [hc] at hsame
  · have hbmem : b ∈ pre ++ [b] ++ c :: post :=
      List.mem_append_left _ (List.mem_append_right pre List.mem_cons_self)
    have hblast : frees (pre ++ [b]) = frees pre ++ [b] := by
      rw [frees_append, frees_cons_of_free hb, frees_nil]
    have hbsize : blockSize mem b.addr = b.size :=
      hsize b (by rw [hblast]; exact List.mem_append_right _ List.mem_cons_self)
    have htouch : b.addr + b.size = c.addr := by
      have hmid := htiles
      rw [List.append_assoc, List.singleton_append] at hmid
      exact (tiles_middle.mp hmid).2.2.1.symm
    have hbound : b.size + c.size < 2 ^ 32 := by
      have hstop := (htiles.bounds (List.mem_append_right _ List.mem_cons_self)).2.2
      have hlt := header_lt (header_endAddress (L := L))
      unfold Chunk.stop at hstop
      omega
    rw [joinLeft_of_free hb, hblast, lastAddr_concat, hbsize, hc, if_pos htouch]
    exact ⟨_, rfl, (rewritten_refl mem b.addr).setBlockSize (hheader hbmem) hbound⟩

/-- The block is joined with the chunk behind it exactly if that is free, and linked to the free
blocks behind. -/
theorem joinBack_eq {iterator : ℕ} (htiles : Tiles L.startAddress (pre ++ c :: post) L.endAddress)
    (haligned : ∀ d ∈ pre ++ c :: post, d.addr % 8 = 0 ∧ d.size % 8 = 0)
    (hlist : FreeList L mem iterator (frees post)) (hc : blockSize mem c.addr = c.size)
    (hiterator : L.Header iterator) :
    ∃ nx, Rewritten L mem (joinBack L.endAddress mem iterator c.addr) c.addr nx
        (joinRight c post).1.size ∧
      FreeList L (joinBack L.endAddress mem iterator c.addr) c.addr
        (frees (joinRight c post).2) := by
  have hheader := fun {d : Chunk} (hd : d ∈ pre ++ c :: post) => header_of_mem htiles haligned hd
  have hcmem : c ∈ pre ++ c :: post := List.mem_append_right pre List.mem_cons_self
  obtain ⟨-, hcpos, hpost⟩ := tiles_middle.mp htiles
  have hcstop := (htiles.bounds hcmem).2.2
  have hlt := header_lt (header_endAddress (L := L))
  have hnextlt : next mem iterator < 2 ^ 32 := by
    have hinside := hlist.next_inside
    omega
  have hend : L.endAddress ≠ c.addr := by
    unfold Chunk.stop at hcstop
    omega
  have hne : ∀ f ∈ post, f.addr ≠ c.addr := by
    intro f hf
    have hle := (hpost.bounds hf).1
    unfold Chunk.stop at hle
    omega
  have hpostHeader : ∀ f ∈ post, L.Header f.addr :=
    fun f hf => hheader (List.mem_append_right pre (List.mem_cons_of_mem c hf))
  have hsame := rewritten_refl (L := L) mem c.addr
  rw [hc] at hsame
  unfold joinBack
  rw [hc]
  rcases back_cases post with rfl | ⟨d, ds, rfl, hd⟩ | ⟨d, ds, rfl, hd⟩
  · -- the mark at the end
    have hnext : next mem iterator = L.endAddress := hlist.path.1
    have htouch : c.addr + c.size = L.endAddress := hpost
    rw [hnext, if_pos htouch, if_neg (not_not.mpr rfl)]
    have hr : Rewritten L mem (setNext mem c.addr L.endAddress) c.addr (next mem iterator)
        c.size := by
      rw [hnext]
      exact hsame.setNext (hheader hcmem) hlt
    exact ⟨_, hr, hlist.moved hr nofun nofun hend⟩
  · have hapart : ¬ c.addr + c.size = next mem iterator := by
      obtain ⟨hdaddr, hdpos, hds⟩ := hpost
      rw [frees_cons_of_used hd] at hlist
      unfold Chunk.stop at hdaddr hds
      cases hfrees : frees ds with
      | nil =>
        rw [hfrees] at hlist
        have hnext : next mem iterator = L.endAddress := hlist.path.1
        have hstop := hds.stop_eq
        omega
      | cons f fs =>
        have hf : f ∈ ds := (mem_frees.mp (by rw [hfrees]; exact List.mem_cons_self)).1
        rw [hfrees] at hlist
        have hnext : next mem iterator = f.addr := hlist.path.1
        have hle := (hds.bounds hf).1
        omega
    rw [if_neg hapart, joinRight_of_used hd]
    have hr := hsame.setNext (hheader hcmem) hnextlt
    exact ⟨_, hr, hlist.moved hr (fun f hf => hpostHeader f (mem_frees.mp hf).1)
      (fun f hf => hne f (mem_frees.mp hf).1) hend⟩
  · rw [frees_cons_of_free hd] at hlist
    obtain ⟨hnext, hdsize, -, htail⟩ := freeList_cons.mp hlist
    obtain ⟨hdaddr, hdpos, hds⟩ := hpost
    have hdstop := hds.stop_eq
    have htouch : c.addr + c.size = d.addr := hdaddr.symm
    have hdne : d.addr ≠ L.endAddress := by
      unfold Chunk.stop at hdstop
      omega
    have hdHeader := hpostHeader d List.mem_cons_self
    have hbound : c.size + d.size < 2 ^ 32 := by
      unfold Chunk.stop at hdstop
      omega
    have htaillt : next mem d.addr < 2 ^ 32 := by
      have hinside := htail.next_inside
      omega
    rw [hnext, if_pos htouch, if_pos hdne, hdsize, joinRight_of_free hd]
    dsimp only
    have hlink : next (setBlockSize mem c.addr (c.size + d.size))
        (next (setBlockSize mem c.addr (c.size + d.size)) iterator) = next mem d.addr := by
      rw [next_setBlockSize (hheader hcmem) hiterator, hnext,
        next_setBlockSize (hheader hcmem) hdHeader]
    rw [hlink]
    have hr := (hsame.setBlockSize (hheader hcmem) hbound).setNext (hheader hcmem) htaillt
    exact ⟨_, hr, htail.moved hr
      (fun f hf => hpostHeader f (List.mem_cons_of_mem d (mem_frees.mp hf).1))
      (fun f hf => hne f (List.mem_cons_of_mem d (mem_frees.mp hf).1)) hend⟩

/-- What the header of a chunk is joined into is the chunk itself or a free one. -/
theorem joinLeft_addr (pre : List Chunk) (c : Chunk) :
    (joinLeft pre c).1 = pre ∧ (joinLeft pre c).2.addr = c.addr ∨
      ∃ b, pre = (joinLeft pre c).1 ++ [b] ∧ b.used = false ∧ (joinLeft pre c).2.addr = b.addr := by
  rcases front_cases pre with rfl | ⟨pre, b, rfl, hb⟩ | ⟨pre, b, rfl, hb⟩
  · exact .inl ⟨rfl, rfl⟩
  · rw [joinLeft_of_used hb]
    exact .inl ⟨rfl, rfl⟩
  · rw [joinLeft_of_free hb]
    exact .inr ⟨b, rfl, hb, rfl⟩

theorem joinRight_addr (c : Chunk) (post : List Chunk) : (joinRight c post).1.addr = c.addr := by
  rcases back_cases post with rfl | ⟨d, ds, rfl, hd⟩ | ⟨d, ds, rfl, hd⟩
  · rfl
  · rw [joinRight_of_used hd]
  · rw [joinRight_of_free hd]

theorem mem_joinRight {c f : Chunk} {post : List Chunk} (h : f ∈ (joinRight c post).2) :
    f ∈ post := by
  rcases back_cases post with rfl | ⟨d, ds, rfl, hd⟩ | ⟨d, ds, rfl, hd⟩
  · exact h
  · rwa [joinRight_of_used hd] at h
  · rw [joinRight_of_free hd] at h
    exact List.mem_cons_of_mem d h

theorem aligned_freeChunk (haligned : ∀ d ∈ pre ++ c :: post, d.addr % 8 = 0 ∧ d.size % 8 = 0) :
    (∀ d ∈ (joinLeft pre { c with used := false }).1 ++
      (joinLeft pre { c with used := false }).2 :: post, d.addr % 8 = 0 ∧ d.size % 8 = 0) ∧
    ∀ d ∈ freeChunk pre c post, d.addr % 8 = 0 ∧ d.size % 8 = 0 := by
  have hc := haligned c (List.mem_append_right pre List.mem_cons_self)
  have hpre := fun d hd => haligned d (List.mem_append_left (c :: post) hd)
  have hpost := fun d hd => haligned d (List.mem_append_right pre (List.mem_cons_of_mem c hd))
  have hleft : (∀ d ∈ (joinLeft pre { c with used := false }).1, d.addr % 8 = 0 ∧ d.size % 8 = 0) ∧
      (joinLeft pre { c with used := false }).2.addr % 8 = 0 ∧
      (joinLeft pre { c with used := false }).2.size % 8 = 0 := by
    rcases front_cases pre with rfl | ⟨pre, b, rfl, hb⟩ | ⟨pre, b, rfl, hb⟩
    · exact ⟨hpre, hc⟩
    · rw [joinLeft_of_used hb]
      exact ⟨hpre, hc⟩
    · rw [joinLeft_of_free hb]
      have hb := hpre b (List.mem_append_right pre List.mem_cons_self)
      exact ⟨fun d hd => hpre d (List.mem_append_left _ hd), hb.1, by dsimp only; omega⟩
  have hright : ∀ l : Chunk, l.addr % 8 = 0 → l.size % 8 = 0 →
      ∀ d ∈ (joinRight l post).1 :: (joinRight l post).2, d.addr % 8 = 0 ∧ d.size % 8 = 0 := by
    intro l haddr hsize
    rcases back_cases post with rfl | ⟨b, ds, rfl, hb⟩ | ⟨b, ds, rfl, hb⟩
    · exact List.forall_mem_cons.mpr ⟨⟨haddr, hsize⟩, hpost⟩
    · rw [joinRight_of_used hb]
      exact List.forall_mem_cons.mpr ⟨⟨haddr, hsize⟩, hpost⟩
    · rw [joinRight_of_free hb]
      have hb := hpost b List.mem_cons_self
      exact List.forall_mem_cons.mpr ⟨⟨haddr, by dsimp only; omega⟩,
        fun d hd => hpost d (List.mem_cons_of_mem b hd)⟩
  constructor
  · intro d hd
    rcases List.mem_append.mp hd with hd | hd
    · exact hleft.1 d hd
    · rcases List.mem_cons.mp hd with rfl | hd
      · exact hleft.2
      · exact hpost d hd
  · intro d hd
    rcases List.mem_append.mp hd with hd | hd
    · exact hleft.1 d hd
    · exact hright _ hleft.2.1 hleft.2.2 d hd

/-- A used chunk is at another place than a free one and than the one that is freed. -/
theorem addr_ne_of_used (htiles : Tiles L.startAddress (pre ++ c :: post) L.endAddress)
    (hd : d ∈ pre ∨ d ∈ post) (hused : d.used = true) : d.addr ≠ c.addr ∧
      ∀ f ∈ pre ++ c :: post, f.used = false → d.addr ≠ f.addr := by
  have hcpos := (htiles.bounds (List.mem_append_right pre List.mem_cons_self)).2.1
  have hdmem : d ∈ pre ++ c :: post := by
    rcases hd with hd | hd
    · exact List.mem_append_left _ hd
    · exact List.mem_append_right _ (List.mem_cons_of_mem c hd)
  have hdpos := (htiles.bounds hdmem).2.1
  constructor
  · rcases hd with hd | hd
    · have hle := htiles.before hd
      unfold Chunk.stop at hle
      omega
    · have hle := ((tiles_middle.mp htiles).2.2.bounds hd).1
      unfold Chunk.stop at hle
      omega
  · intro f hf hfree heq
    rw [htiles.eq_of_addr hdmem hf heq, hfree] at hused
    exact Bool.noConfusion hused

/-- The headers are in order for the chunks with one freed, if the free block that comes of it is
linked in and nothing else has changed. -/
theorem headers_freeChunk {l : List Chunk × Chunk} (hh : Headers L mem (pre ++ c :: post))
    (hl : joinLeft pre { c with used := false } = l)
    (hnext : ∀ q, L.Header q → q ≠ lastAddr L.xStart (frees l.1) → q ≠ l.2.addr → q ≠ c.addr →
      next mem' q = next mem q)
    (hsize : ∀ q, L.Header q → q ≠ l.2.addr → q ≠ c.addr → blockSize mem' q = blockSize mem q)
    (hlink : next mem' (lastAddr L.xStart (frees l.1)) = l.2.addr)
    (hself : blockSize mem' l.2.addr = (joinRight l.2 post).1.size)
    (hlist : FreeList L mem' l.2.addr (frees (joinRight l.2 post).2)) :
    Headers L mem' (freeChunk pre c post) := by
  have hcmem : c ∈ pre ++ c :: post := List.mem_append_right pre List.mem_cons_self
  have hheader := fun {d : Chunk} (hd : d ∈ pre ++ c :: post) =>
    header_of_mem hh.tiles hh.aligned hd
  have htilesL : Tiles L.startAddress (l.1 ++ l.2 :: post) L.endAddress := by
    rw [← hl]
    exact tiles_joinLeft (tiles_use hh.tiles)
  -- what the chunk is joined into is itself or a free chunk in front of it
  obtain ⟨hsub, ht⟩ : (∀ f ∈ l.1, f ∈ pre) ∧
      (l.2.addr = c.addr ∨ ∃ b ∈ pre, b.used = false ∧ l.2.addr = b.addr) := by
    rcases joinLeft_addr pre { c with used := false } with ⟨h1, h2⟩ | ⟨b, h1, hb, h2⟩
    · rw [hl] at h1 h2
      exact ⟨fun f hf => h1 ▸ hf, .inl h2⟩
    · rw [hl] at h1 h2
      rw [h1]
      exact ⟨fun f hf => List.mem_append_left _ hf,
        .inr ⟨b, List.mem_append_right _ List.mem_cons_self, hb, h2⟩⟩
  have hne : ∀ f ∈ l.1, f.addr ≠ l.2.addr ∧ f.addr ≠ c.addr := by
    intro f hf
    have hle := htilesL.before hf
    have hle' := hh.tiles.before (hsub f hf)
    have hpos := (htilesL.bounds (List.mem_append_left _ hf)).2.1
    unfold Chunk.stop at hle hle'
    omega
  have hstart : L.xStart ≠ l.2.addr ∧ L.xStart ≠ c.addr := by
    refine ⟨?_, xStart_ne hh.tiles hcmem⟩
    rcases ht with ht | ⟨b, hb, -, ht⟩
    · rw [ht]
      exact xStart_ne hh.tiles hcmem
    · rw [ht]
      exact xStart_ne hh.tiles (List.mem_append_left _ hb)
  have hfrees : frees (freeChunk pre c post) =
      frees l.1 ++ (joinRight l.2 post).1 :: frees (joinRight l.2 post).2 := by
    unfold freeChunk
    rw [hl]
    dsimp only
    rw [frees_append, frees_cons_of_free (used_joinRight (by rw [← hl]; exact used_joinLeft rfl))]
  have htilesR := tiles_freeChunk hh.tiles
  have halignedR := (aligned_freeChunk hh.aligned).2
  refine ⟨htilesR, halignedR, fun d hd hused => ?_, ?_, ?_⟩
  · have hd' := (mem_freeChunk_of_used hused).mp hd
    have hdmem : d ∈ pre ++ c :: post := by
      rcases hd' with hd' | hd'
      · exact List.mem_append_left _ hd'
      · exact List.mem_append_right _ (List.mem_cons_of_mem c hd')
    obtain ⟨hdc, hdfree⟩ := addr_ne_of_used hh.tiles hd' hused
    have hdl : d.addr ≠ l.2.addr := by
      rcases ht with ht | ⟨b, hb, hbfree, ht⟩
      · rwa [ht]
      · rw [ht]
        exact hdfree b (List.mem_append_left _ hb) hbfree
    have hdlast : d.addr ≠ lastAddr L.xStart (frees l.1) := by
      rcases lastAddr_cases L.xStart (frees l.1) with h | ⟨f, hf, h⟩
      · rw [h]
        exact (xStart_ne hh.tiles hdmem).symm
      · rw [h]
        obtain ⟨hf, hfree⟩ := mem_frees.mp hf
        exact hdfree f (List.mem_append_left _ (hsub f hf)) hfree
    rw [hnext _ (hheader hdmem) hdlast hdl hdc, hsize _ (hheader hdmem) hdl hdc]
    exact hh.allocated d hdmem hused
  · have hold := hh.freeList
    rw [hfrees]
    have hsplit : ∃ rest, frees (pre ++ c :: post) = frees l.1 ++ rest := by
      rw [frees_append]
      rcases joinLeft_addr pre { c with used := false } with ⟨h1, -⟩ | ⟨b, h1, -, -⟩
      · rw [hl] at h1
        exact ⟨_, by rw [h1]⟩
      · rw [hl] at h1
        exact ⟨_, by rw [h1, frees_append, List.append_assoc]⟩
    obtain ⟨rest, hrest⟩ := hsplit
    rw [hrest] at hold
    have hmem := fun f (hf : f ∈ frees l.1) => mem_frees.mp hf
    have hnodup : (L.xStart :: (frees l.1).map Chunk.addr).Nodup := by
      refine (nodup_addrs htilesL).sublist (List.Sublist.cons_cons _ (List.Sublist.map _ ?_))
      exact List.filter_sublist.trans (List.sublist_append_left ..)
    refine hold.relink hnodup (fun q hq hqne => ?_) (fun f hf => ?_) ?_
    · rcases List.mem_cons.mp hq with rfl | hq
      · exact hnext _ header_xStart hqne hstart.1 hstart.2
      · obtain ⟨f, hf, rfl⟩ := List.mem_map.mp hq
        have hfl := hne f (hmem f hf).1
        exact hnext _ (hheader (List.mem_append_left _ (hsub f (hmem f hf).1))) hqne hfl.1 hfl.2
    · have hfl := hne f (hmem f hf).1
      exact hsize _ (hheader (List.mem_append_left _ (hsub f (hmem f hf).1))) hfl.1 hfl.2
    · have haddr := joinRight_addr l.2 post
      have hin : (joinRight l.2 post).1 ∈ freeChunk pre c post := by
        unfold freeChunk
        rw [hl]
        exact List.mem_append_right _ List.mem_cons_self
      have hbounds := htilesR.bounds hin
      unfold Chunk.stop at hbounds
      refine freeList_cons.mpr ⟨hlink.trans haddr.symm, ?_, ⟨hbounds.1, by omega⟩, ?_⟩
      · rw [haddr]
        exact hself
      · rw [haddr]
        exact hlist
  · rw [hsize _ header_xStart hstart.1 hstart.2]
    exact hh.start

/-- The block that has been joined with the one in front is joined with the one behind it and
linked in: the headers are in order again. -/
theorem headers_linked {mem₁ : ℕ → UInt8} {l : List Chunk × Chunk}
    (hh : Headers L mem (pre ++ c :: post))
    (hl : joinLeft pre { c with used := false } = l) (hr : Rewritten L mem mem' c.addr 0 c.size)
    (hpath : Path (next mem') L.xStart ((frees pre).map Chunk.addr))
    (hlist : FreeList L mem' (lastAddr L.xStart (frees pre)) (frees post))
    (hr₁ : Rewritten L mem' mem₁ l.2.addr (next mem' l.2.addr) l.2.size) :
    ∃ mem₂, mem₂ = (if lastAddr L.xStart (frees pre) ≠ l.2.addr
        then setNext (joinBack L.endAddress mem₁ (lastAddr L.xStart (frees pre)) l.2.addr)
          (lastAddr L.xStart (frees pre)) l.2.addr
        else joinBack L.endAddress mem₁ (lastAddr L.xStart (frees pre)) l.2.addr) ∧
      Headers L mem₂ (freeChunk pre c post) ∧
      ∀ d ∈ pre ++ c :: post, d.used = true → d ≠ c → ∀ x, d.addr ≤ x → x < d.stop →
        mem₂ x = mem x := by
  have hcmem : c ∈ pre ++ c :: post := List.mem_append_right pre List.mem_cons_self
  have hheader := fun {d : Chunk} (hd : d ∈ pre ++ c :: post) =>
    header_of_mem hh.tiles hh.aligned hd
  have htilesL : Tiles L.startAddress (l.1 ++ l.2 :: post) L.endAddress := by
    rw [← hl]
    exact tiles_joinLeft (tiles_use hh.tiles)
  have halignedL : ∀ d ∈ l.1 ++ l.2 :: post, d.addr % 8 = 0 ∧ d.size % 8 = 0 := by
    rw [← hl]
    exact (aligned_freeChunk hh.aligned).1
  have hlmem : l.2 ∈ l.1 ++ l.2 :: post := List.mem_append_right _ List.mem_cons_self
  have hlHeader : L.Header l.2.addr := header_of_mem htilesL halignedL hlmem
  have hiterator : L.Header (lastAddr L.xStart (frees pre)) := by
    rcases lastAddr_cases L.xStart (frees pre) with h | ⟨f, hf, h⟩
    · rw [h]
      exact header_xStart
    · rw [h]
      exact hheader (List.mem_append_left _ (mem_frees.mp hf).1)
  -- the links are those from before, and the sizes but for one
  have hnext₁ : ∀ q, L.Header q → next mem₁ q = next mem' q := by
    intro q hq
    rcases eq_or_ne q l.2.addr with rfl | hne
    · exact hr₁.next_self
    · exact hr₁.next_of_ne q hq hne
  have hlist₁ : FreeList L mem₁ (lastAddr L.xStart (frees pre)) (frees post) := by
    refine hlist.congr (fun q hq => ?_) fun f hf => ?_
    · rcases List.mem_cons.mp hq with rfl | hq
      · exact hnext₁ _ hiterator
      · rcases List.mem_append.mp hq with hq | hq
        · obtain ⟨f, hf, rfl⟩ := List.mem_map.mp hq
          exact hnext₁ _ (hheader (List.mem_append_right _
            (List.mem_cons_of_mem c (mem_frees.mp hf).1)))
        · rw [List.mem_singleton.mp hq]
          exact hnext₁ _ header_endAddress
    · have hf' := (mem_frees.mp hf).1
      have hle := ((tiles_middle.mp htilesL).2.2.bounds hf').1
      have hpos := (tiles_middle.mp htilesL).2.1
      unfold Chunk.stop at hle
      exact hr₁.size_of_ne _ (hheader (List.mem_append_right _ (List.mem_cons_of_mem c hf')))
        (by omega)
  obtain ⟨nx, hr₂, hlist₂⟩ := joinBack_eq htilesL halignedL hlist₁ hr₁.size_self hiterator
  generalize joinBack L.endAddress mem₁ (lastAddr L.xStart (frees pre)) l.2.addr = mem₂ at *
  have hnext₂ : ∀ q, L.Header q → q ≠ l.2.addr → q ≠ c.addr → next mem₂ q = next mem q := by
    intro q hq hql hqc
    rw [hr₂.next_of_ne q hq hql, hnext₁ q hq, hr.next_of_ne q hq hqc]
  have hsize₂ : ∀ q, L.Header q → q ≠ l.2.addr → q ≠ c.addr →
      blockSize mem₂ q = blockSize mem q := by
    intro q hq hql hqc
    rw [hr₂.size_of_ne q hq hql, hr₁.size_of_ne q hq hql, hr.size_of_ne q hq hqc]
  have houtside₂ : ∀ x, (x < l.2.addr ∨ l.2.addr + 8 ≤ x) → (x < c.addr ∨ c.addr + 8 ≤ x) →
      mem₂ x = mem x := by
    intro x hxl hxc
    rw [hr₂.outside x hxl, hr₁.outside x hxl, hr.outside x hxc]
  have hfront : ∀ f ∈ pre, f.addr < c.addr := by
    intro f hf
    have hle := hh.tiles.before hf
    have hpos := (hh.tiles.bounds (List.mem_append_left _ hf)).2.1
    unfold Chunk.stop at hle
    omega
  rcases joinLeft_addr pre { c with used := false } with ⟨h1, h2⟩ | ⟨b, h1, hb, h2⟩
  · -- the chunk stays by itself, and the block in front links to it
    rw [hl] at h1 h2
    have h2' : l.2.addr = c.addr := h2
    have hne : ∀ q ∈ l.2.addr :: ((frees (joinRight l.2 post).2).map Chunk.addr ++ [L.endAddress]),
        L.Header q ∧ q ≠ lastAddr L.xStart (frees pre) := by
      have hcbounds := hh.tiles.bounds hcmem
      have hfar : ∀ q, L.Header q → L.startAddress ≤ q → c.addr ≤ q → q ≤ L.endAddress →
          L.Header q ∧ q ≠ lastAddr L.xStart (frees pre) := by
        intro q hq hlow hle hhigh
        refine ⟨hq, ?_⟩
        rcases lastAddr_cases L.xStart (frees pre) with h | ⟨f, hf, h⟩
        · obtain ⟨-, -, hlow', -, hhigh'⟩ := L.addresses
          have hapart := L.apart
          rw [h]
          omega
        · have hlt := hfront f (mem_frees.mp hf).1
          rw [h]
          omega
      unfold Chunk.stop at hcbounds
      intro q hq
      rcases List.mem_cons.mp hq with rfl | hq
      · exact hfar _ hlHeader (by omega) (by omega) (by omega)
      · rcases List.mem_append.mp hq with hq | hq
        · obtain ⟨f, hf, rfl⟩ := List.mem_map.mp hq
          have hf' := mem_joinRight (mem_frees.mp hf).1
          have hfmem : f ∈ pre ++ c :: post :=
            List.mem_append_right _ (List.mem_cons_of_mem c hf')
          have hle := ((tiles_middle.mp hh.tiles).2.2.bounds hf').1
          have hbounds := hh.tiles.bounds hfmem
          unfold Chunk.stop at hle hbounds
          exact hfar _ (hheader hfmem) (by omega) (by omega) (by omega)
        · rw [List.mem_singleton.mp hq]
          exact hfar _ header_endAddress (by omega) (by omega) (Nat.le_refl _)
    have hlne := (hne _ List.mem_cons_self).2
    have hlt := header_lt hlHeader
    refine ⟨_, rfl, ?_, ?_⟩
    · rw [if_pos hlne.symm]
      refine headers_freeChunk hh hl (fun q hq hqP hql hqc => ?_) (fun q hq hql hqc => ?_) ?_ ?_ ?_
      · rw [h1] at hqP
        rw [next_setNext hiterator hq hlt, if_neg hqP]
        exact hnext₂ q hq hql hqc
      · rw [blockSize_setNext hiterator hq]
        exact hsize₂ q hq hql hqc
      · rw [h1, next_setNext hiterator hiterator hlt, if_pos rfl]
      · rw [blockSize_setNext hiterator hlHeader]
        exact hr₂.size_self
      · refine hlist₂.congr (fun q hq => ?_) fun f hf => ?_
        · obtain ⟨hqHeader, hqne⟩ := hne q hq
          rw [next_setNext hiterator hqHeader hlt, if_neg hqne]
        · have hq := hne f.addr (List.mem_cons_of_mem _
            (List.mem_append_left _ (List.mem_map_of_mem hf)))
          exact blockSize_setNext hiterator hq.1
    · intro d hd hused hdc x hx hx'
      have hout := outside_header hh hcmem hd (Ne.symm hdc) hx hx'
      rw [if_pos hlne.symm, setNext_of_outside]
      · exact houtside₂ x (by rw [h2']; exact hout) hout
      · rcases lastAddr_cases L.xStart (frees pre) with h | ⟨f, hf, h⟩
        · rw [h]
          exact outside_xStart hh hd hx hx'
        · rw [h]
          obtain ⟨hf, hfree⟩ := mem_frees.mp hf
          refine outside_header hh (List.mem_append_left _ hf) hd ?_ hx hx'
          rintro rfl
          exact Bool.noConfusion (hfree.symm.trans hused)
  · -- the chunk in front has taken it in, and the block in front of that links to it already
    rw [hl] at h1 h2
    have hbpre : b ∈ pre := by
      rw [h1]
      exact List.mem_append_right _ List.mem_cons_self
    have hlast : frees pre = frees l.1 ++ [b] := by
      rw [h1, frees_append, frees_cons_of_free hb, frees_nil]
    have hit : lastAddr L.xStart (frees pre) = l.2.addr := by
      rw [hlast, lastAddr_concat, h2]
    rw [hlast, List.map_append, path_append] at hpath
    have hlink : next mem' (lastAddr L.xStart (frees l.1)) = b.addr := hpath.2.1
    have hP : L.Header (lastAddr L.xStart (frees l.1)) ∧
        lastAddr L.xStart (frees l.1) ≠ l.2.addr := by
      rcases lastAddr_cases L.xStart (frees l.1) with h | ⟨f, hf, h⟩
      · rw [h, h2]
        exact ⟨header_xStart, xStart_ne hh.tiles (List.mem_append_left _ hbpre)⟩
      · rw [h]
        have hf' := (mem_frees.mp hf).1
        have hle := htilesL.before hf'
        have hpos := (htilesL.bounds (List.mem_append_left _ hf')).2.1
        unfold Chunk.stop at hle
        exact ⟨header_of_mem htilesL halignedL (List.mem_append_left _ hf'), by omega⟩
    refine ⟨_, rfl, ?_, ?_⟩
    · rw [if_neg (not_not.mpr hit)]
      refine headers_freeChunk hh hl (fun q hq _ hql hqc => hnext₂ q hq hql hqc) hsize₂ ?_
        hr₂.size_self hlist₂
      rw [hr₂.next_of_ne _ hP.1 hP.2, hnext₁ _ hP.1, hlink, h2]
    · intro d hd hused hdc x hx hx'
      have hdb : b ≠ d := by
        rintro rfl
        exact Bool.noConfusion (hb.symm.trans hused)
      rw [if_neg (not_not.mpr hit)]
      refine houtside₂ x ?_ (outside_header hh hcmem hd (Ne.symm hdc) hx hx')
      rw [h2]
      exact outside_header hh (List.mem_append_left _ hbpre) hd hdb hx hx'

/-- A chunk whose header has been cleared is inserted: it is joined with its free neighbours, and the
used chunks are as they were. -/
theorem prvInsertBlockIntoFreeList_eq (hh : Headers L mem (pre ++ c :: post)) (hc : c.used = true)
    (hr : Rewritten L mem mem' c.addr 0 c.size) :
    ∃ mem'', prvInsertBlockIntoFreeList L L.endAddress mem' c.addr = .ok mem'' ∧
      Headers L mem'' (freeChunk pre c post) ∧
      ∀ d ∈ pre ++ c :: post, d.used = true → d ≠ c → ∀ x, d.addr ≤ x → x < d.stop →
        mem'' x = mem x := by
  have hcmem : c ∈ pre ++ c :: post := List.mem_append_right pre List.mem_cons_self
  have hheader := fun {d : Chunk} (hd : d ∈ pre ++ c :: post) =>
    header_of_mem hh.tiles hh.aligned hd
  have hfrees : frees (pre ++ c :: post) = frees pre ++ frees post := by
    rw [frees_append, frees_cons_of_used hc]
  have hcbounds := hh.tiles.bounds hcmem
  -- the list of free blocks does not notice that the header has been cleared
  have hlist : FreeList L mem' L.xStart (frees pre ++ frees post) := by
    rw [← hfrees]
    have hfne : ∀ f ∈ frees (pre ++ c :: post), L.Header f.addr ∧ f.addr ≠ c.addr := by
      intro f hf
      obtain ⟨hf, hfree⟩ := mem_frees.mp hf
      refine ⟨hheader hf, fun heq => ?_⟩
      rw [hh.tiles.eq_of_addr hf hcmem heq, hc] at hfree
      exact Bool.noConfusion hfree
    refine hh.freeList.congr (fun q hq => ?_) fun f hf =>
      hr.size_of_ne _ (hfne f hf).1 (hfne f hf).2
    rcases List.mem_cons.mp hq with rfl | hq
    · exact hr.next_of_ne _ header_xStart (xStart_ne hh.tiles hcmem)
    · rcases List.mem_append.mp hq with hq | hq
      · obtain ⟨f, hf, rfl⟩ := List.mem_map.mp hq
        exact hr.next_of_ne _ (hfne f hf).1 (hfne f hf).2
      · rw [List.mem_singleton.mp hq]
        refine hr.next_of_ne _ header_endAddress ?_
        have hstop := hcbounds.2.2
        unfold Chunk.stop at hstop
        omega
  have hlength : (frees pre ++ frees post).length < L.totalHeapSize + 1 := by
    rw [← hfrees]
    exact length_frees_lt hh.tiles
  have hcend : c.addr ≤ L.endAddress := by
    have hstop := hcbounds.2.2
    unfold Chunk.stop at hstop
    omega
  have hfind := findPlace_eq hlist hcend hlength
  rw [takeWhile_frees hh.tiles] at hfind
  obtain ⟨hpath, hsizes, hinside, htail⟩ := freeList_append.mp hlist
  have hiterator : L.Header (lastAddr L.xStart (frees pre)) ∧
      (lastAddr L.xStart (frees pre) ≠ L.xStart →
        validate L (lastAddr L.xStart (frees pre)) = .ok ()) := by
    rcases lastAddr_cases L.xStart (frees pre) with h | ⟨f, hf, h⟩
    · rw [h]
      exact ⟨header_xStart, fun hne => absurd rfl hne⟩
    · rw [h]
      obtain ⟨hlow, hhigh⟩ := hinside f hf
      exact ⟨hheader (List.mem_append_left _ (mem_frees.mp hf).1), fun _ => validate_of hlow hhigh⟩
  have hstart' : blockSize mem' L.xStart = 0 := by
    rw [hr.size_of_ne _ header_xStart (xStart_ne hh.tiles hcmem)]
    exact hh.start
  have haligned' : ∀ d ∈ pre ++ { c with used := false } :: post,
      d.addr % 8 = 0 ∧ d.size % 8 = 0 := by
    intro d hd
    rcases List.mem_append.mp hd with hd | hd
    · exact hh.aligned d (List.mem_append_left _ hd)
    · rcases List.mem_cons.mp hd with rfl | hd
      · exact hh.aligned c hcmem
      · exact hh.aligned d (List.mem_append_right _ (List.mem_cons_of_mem c hd))
  obtain ⟨mem₁, hfront, hr₁⟩ := joinFront_eq (tiles_use hh.tiles) haligned' hsizes
    hstart' hr.size_self
  obtain ⟨mem₂, hmem₂, hheaders, houtside⟩ := headers_linked hh rfl hr hpath htail hr₁
  refine ⟨mem₂, ?_, hheaders, houtside⟩
  unfold prvInsertBlockIntoFreeList
  rw [hfind]
  have hresult :
      (let r := joinFront mem' (lastAddr L.xStart (frees pre)) c.addr
      let mem := joinBack L.endAddress r.2 (lastAddr L.xStart (frees pre)) r.1
      if lastAddr L.xStart (frees pre) ≠ r.1 then setNext mem (lastAddr L.xStart (frees pre)) r.1
      else mem) = mem₂ := by
    rw [hfront]
    exact hmem₂.symm
  by_cases hne : lastAddr L.xStart (frees pre) = L.xStart
  · have hstay : ¬ lastAddr L.xStart (frees pre) ≠ L.xStart := not_not.mpr hne
    show (if lastAddr L.xStart (frees pre) ≠ L.xStart then _ else _) = _
    rw [if_neg hstay]
    exact congrArg Except.ok hresult
  · show (if lastAddr L.xStart (frees pre) ≠ L.xStart then _ else _) = _
    rw [if_pos hne, hiterator.2 hne]
    exact congrArg Except.ok hresult

/-! ## Allocating -/

/-- What the headers show: the links and the sizes. -/
structure Shows (L : Layout) (mem : ℕ → UInt8) (links sizes : ℕ → ℕ) : Prop where
  next : ∀ q, L.Header q → next mem q = links q
  size : ∀ q, L.Header q → blockSize mem q = sizes q

section

variable {links sizes : ℕ → ℕ}

theorem Shows.setNext (h : Shows L mem links sizes) (hp : L.Header p) (hv : v < 2 ^ 32) :
    Shows L (setNext mem p v) (Function.update links p v) sizes where
  next q hq := by rw [next_setNext hp hq hv, h.next q hq, Function.update_apply]
  size q hq := by rw [blockSize_setNext hp hq, h.size q hq]

theorem Shows.setBlockSize (h : Shows L mem links sizes) (hp : L.Header p) (hv : v < 2 ^ 32) :
    Shows L (setBlockSize mem p v) links (Function.update sizes p v) where
  next q hq := by rw [next_setBlockSize hp hq, h.next q hq]
  size q hq := by rw [blockSize_setBlockSize hp hq hv, h.size q hq, Function.update_apply]

theorem next_lt (mem : ℕ → UInt8) (p : ℕ) : next mem p < 2 ^ 32 := by
  have hload := ofLeBytes_lt (loadBytes mem p 4)
  rwa [length_loadBytes] at hload

theorem blockSize_lt (mem : ℕ → UInt8) (p : ℕ) : blockSize mem p < 2 ^ 32 := by
  have hload := ofLeBytes_lt (loadBytes mem (p + 4) 4)
  rwa [length_loadBytes] at hload

/-- The rest of a block is linked in behind the one in front of it. -/
theorem splitBlock_eq {previous block wanted : ℕ} (h : Shows L mem links sizes)
    (hprevious : L.Header previous) (hblock : L.Header block) (hnew : L.Header (block + wanted))
    (haligned : (block + wanted) % 8 = 0) (hlt : wanted < 2 ^ 32) :
    ∃ mem', splitBlock mem previous block wanted = .ok mem' ∧
      Shows L mem'
        (Function.update (Function.update links (block + wanted) (links previous)) previous
          (block + wanted))
        (Function.update (Function.update sizes (block + wanted) (sizes block - wanted)) block
          wanted) ∧
      ∀ x, (x < previous ∨ previous + 8 ≤ x) → (x < block ∨ block + 8 ≤ x) →
        (x < block + wanted ∨ block + wanted + 8 ≤ x) → mem' x = mem x := by
  have hrest : blockSize mem block - wanted < 2 ^ 32 :=
    Nat.lt_of_le_of_lt (Nat.sub_le _ _) (blockSize_lt mem block)
  have hsizes := (h.setBlockSize hnew hrest).setBlockSize hblock hlt
  have hnext := next_lt (setBlockSize (setBlockSize mem (block + wanted)
    (blockSize mem block - wanted)) block wanted) previous
  have hlinks := (hsizes.setNext hnew hnext).setNext hprevious (header_lt hnew)
  have hsplit : ∃ mem', splitBlock mem previous block wanted = .ok mem' ∧
      mem' = setNext (setNext (setBlockSize (setBlockSize mem (block + wanted)
        (blockSize mem block - wanted)) block wanted) (block + wanted) (next (setBlockSize
          (setBlockSize mem (block + wanted) (blockSize mem block - wanted)) block wanted)
            previous)) previous (block + wanted) := by
    unfold splitBlock
    dsimp only
    rw [configAssert_of haligned]
    exact ⟨_, rfl, rfl⟩
  obtain ⟨mem', hsplit, rfl⟩ := hsplit
  refine ⟨_, hsplit, ?_, fun x hxp hxb hxn => ?_⟩
  · rw [← hsizes.next _ hprevious, ← h.size _ hblock]
    exact hlinks
  · rw [setNext_of_outside hxp, setNext_of_outside hxn, setBlockSize_of_outside hxb,
      setBlockSize_of_outside hxn]

end

/-- The free chunks in front of one lie in the heap at lower addresses. -/
theorem lastAddr_frees (hh : Headers L mem (pre ++ c :: post)) :
    L.Header (lastAddr L.xStart (frees pre)) ∧ (lastAddr L.xStart (frees pre) = L.xStart ∨
      ∃ f ∈ pre, f.used = false ∧ f.stop ≤ c.addr ∧ lastAddr L.xStart (frees pre) = f.addr) := by
  rcases lastAddr_cases L.xStart (frees pre) with h | ⟨f, hf, h⟩
  · rw [h]
    exact ⟨header_xStart, .inl rfl⟩
  · obtain ⟨hf, hfree⟩ := mem_frees.mp hf
    rw [h]
    exact ⟨header_of_mem hh.tiles hh.aligned (List.mem_append_left _ hf),
      .inr ⟨f, hf, hfree, hh.tiles.before hf, rfl⟩⟩

/-- No chunk but the one itself has its header in it, and `xStart` is not there, either. -/
theorem lastAddr_apart (hh : Headers L mem (pre ++ c :: post)) {a : ℕ} (ha : c.addr ≤ a)
    (ha' : a ≤ L.endAddress) : lastAddr L.xStart (frees pre) ≠ a := by
  have hcbounds := hh.tiles.bounds (List.mem_append_right pre List.mem_cons_self)
  rcases (lastAddr_frees hh).2 with h | ⟨f, hf, -, hle, h⟩
  · obtain ⟨-, -, hlow, -, hhigh⟩ := L.addresses
    have hapart := L.apart
    rw [h]
    omega
  · have hpos := (hh.tiles.bounds (List.mem_append_left _ hf)).2.1
    unfold Chunk.stop at hle
    rw [h]
    omega

/-- The headers are in order for the chunks with the first part of a free one used, if that is marked
and the rest is linked in. -/
theorem headers_useChunk {wanted : ℕ} (hh : Headers L mem (pre ++ c :: post))
    (hpos : 0 < wanted) (hle : wanted ≤ c.size) (haligned : wanted % 8 = 0)
    (hother : ∀ q, L.Header q → q ≠ lastAddr L.xStart (frees pre) → q ≠ c.addr →
      (16 < c.size - wanted → q ≠ c.addr + wanted) → next mem' q = next mem q)
    (hsize : ∀ q, L.Header q → q ≠ c.addr → (16 < c.size - wanted → q ≠ c.addr + wanted) →
      blockSize mem' q = blockSize mem q)
    (hself : next mem' c.addr = 0 ∧
      blockSize mem' c.addr = usedSize 16 c wanted + allocatedBitmask)
    (hlist : FreeList L mem' (lastAddr L.xStart (frees pre)) (if 16 < c.size - wanted
      then ⟨c.addr + wanted, c.size - wanted, false⟩ :: frees post else frees post)) :
    Headers L mem' (useChunk 16 pre c post wanted) := by
  have hcmem : c ∈ pre ++ c :: post := List.mem_append_right pre List.mem_cons_self
  have hheader := fun {d : Chunk} (hd : d ∈ pre ++ c :: post) =>
    header_of_mem hh.tiles hh.aligned hd
  have hcbounds := hh.tiles.bounds hcmem
  have hcaligned := hh.aligned c hcmem
  -- the header of another chunk is not in this one
  have hapart : ∀ d, d ∈ pre ∨ d ∈ post → d ∈ pre ++ c :: post ∧ d.addr ≠ c.addr ∧
      (16 < c.size - wanted → d.addr ≠ c.addr + wanted) := by
    intro d hd
    rcases hd with hd | hd
    · have hmem : d ∈ pre ++ c :: post := List.mem_append_left _ hd
      have hstop := hh.tiles.before hd
      have hdpos := (hh.tiles.bounds hmem).2.1
      unfold Chunk.stop at hstop
      exact ⟨hmem, by omega, fun _ => by omega⟩
    · have hmem : d ∈ pre ++ c :: post := List.mem_append_right _ (List.mem_cons_of_mem c hd)
      have hstop := ((tiles_middle.mp hh.tiles).2.2.bounds hd).1
      unfold Chunk.stop at hstop
      exact ⟨hmem, by omega, fun _ => by omega⟩
  have hstart : L.xStart ≠ c.addr ∧ (16 < c.size - wanted → L.xStart ≠ c.addr + wanted) := by
    obtain ⟨-, -, hlow, -, hhigh⟩ := L.addresses
    have hLapart := L.apart
    unfold Chunk.stop at hcbounds
    exact ⟨by omega, fun _ => by omega⟩
  refine ⟨tiles_useChunk hh.tiles hpos, fun d hd => ?_, fun d hd hused => ?_, ?_, ?_⟩
  · have hother := fun d hd => hh.aligned d (hapart d hd).1
    unfold useChunk at hd
    split_ifs at hd
    · rcases List.mem_append.mp hd with hd | hd
      · exact hother d (.inl hd)
      · rcases List.mem_cons.mp hd with rfl | hd
        · exact ⟨hcaligned.1, haligned⟩
        · rcases List.mem_cons.mp hd with rfl | hd
          · exact ⟨by dsimp only; omega, by dsimp only; omega⟩
          · exact hother d (.inr hd)
    · rcases List.mem_append.mp hd with hd | hd
      · exact hother d (.inl hd)
      · rcases List.mem_cons.mp hd with rfl | hd
        · exact hcaligned
        · exact hother d (.inr hd)
  · have hold : ∀ d, d ∈ pre ∨ d ∈ post → d.used = true →
        next mem' d.addr = 0 ∧ blockSize mem' d.addr = d.size + allocatedBitmask := by
      intro d hd hused
      obtain ⟨hmem, hne, hrest⟩ := hapart d hd
      have hlast : d.addr ≠ lastAddr L.xStart (frees pre) := by
        rcases (lastAddr_frees hh).2 with h | ⟨f, hf, hfree, -, h⟩
        · rw [h]
          exact (xStart_ne hh.tiles hmem).symm
        · rw [h]
          exact (addr_ne_of_used hh.tiles hd hused).2 f (List.mem_append_left _ hf) hfree
      rw [hother _ (hheader hmem) hlast hne hrest, hsize _ (hheader hmem) hne hrest]
      exact hh.allocated d hmem hused
    rcases (mem_useChunk_of_used hused).mp hd with hd | hd | rfl
    · exact hold d (.inl hd) hused
    · exact hold d (.inr hd) hused
    · exact hself
  · have hlistOld := hh.freeList
    rw [frees_append] at hlistOld
    have hrest : frees (useChunk 16 pre c post wanted) = frees pre ++ (if 16 < c.size - wanted
        then ⟨c.addr + wanted, c.size - wanted, false⟩ :: frees post else frees post) := by
      rw [frees_useChunk]
      split_ifs
      · rfl
      · rfl
    have hnodup : (L.xStart :: (frees pre).map Chunk.addr).Nodup := by
      refine (nodup_addrs hh.tiles).sublist (List.Sublist.cons_cons _ (List.Sublist.map _ ?_))
      exact List.filter_sublist.trans (List.sublist_append_left ..)
    rw [hrest]
    refine hlistOld.relink hnodup (fun q hq hqne => ?_) (fun f hf => ?_) hlist
    · rcases List.mem_cons.mp hq with rfl | hq
      · exact hother _ header_xStart hqne hstart.1 hstart.2
      · obtain ⟨f, hf, rfl⟩ := List.mem_map.mp hq
        obtain ⟨hmem, hne, hrest⟩ := hapart f (.inl (mem_frees.mp hf).1)
        exact hother _ (hheader hmem) hqne hne hrest
    · obtain ⟨hmem, hne, hrest⟩ := hapart f (.inl (mem_frees.mp hf).1)
      exact hsize _ (hheader hmem) hne hrest
  · rw [hsize _ header_xStart hstart.1 hstart.2]
    exact hh.start

/-- The block behind the one in front of it is taken, and the rest of it stays free. No used chunk is
touched. -/
theorem takeBlock_eq {h : Heap} {wanted : ℕ} (hh : Headers L h.mem (pre ++ c :: post))
    (hc : c.used = false) (hpos : 0 < wanted) (hle : wanted ≤ c.size) (haligned : wanted % 8 = 0) :
    ∃ mem', takeBlock L h (lastAddr L.xStart (frees pre)) c.addr wanted = .ok (c.addr + 8, { h with
        mem := mem'
        xFreeBytesRemaining := h.xFreeBytesRemaining - usedSize 16 c wanted
        xMinimumEverFreeBytesRemaining := min (h.xFreeBytesRemaining - usedSize 16 c wanted)
          h.xMinimumEverFreeBytesRemaining
        xNumberOfSuccessfulAllocations := h.xNumberOfSuccessfulAllocations + 1 }) ∧
      Headers L mem' (useChunk 16 pre c post wanted) ∧
      ∀ d ∈ pre ++ c :: post, d.used = true → ∀ x, d.addr ≤ x → x < d.stop → mem' x = h.mem x := by
  have hcmem : c ∈ pre ++ c :: post := List.mem_append_right pre List.mem_cons_self
  have hcbounds := hh.tiles.bounds hcmem
  have hcaligned := hh.aligned c hcmem
  unfold Chunk.stop at hcbounds
  have hcHeader : L.Header c.addr := header_of_mem hh.tiles hh.aligned hcmem
  have hend := header_lt (header_endAddress (L := L))
  obtain ⟨hpHeader, hpcases⟩ := lastAddr_frees hh
  have hpc := lastAddr_apart hh (Nat.le_refl c.addr) (by omega)
  have hlist := hh.freeList
  rw [frees_append, frees_cons_of_free hc] at hlist
  obtain ⟨-, -, -, hlistc⟩ := freeList_append.mp hlist
  obtain ⟨hlink, hcsize, -, htail⟩ := freeList_cons.mp hlistc
  have htaillt := next_lt h.mem c.addr
  generalize hprev : lastAddr L.xStart (frees pre) = previous at *
  have h₀ : Shows L h.mem (next h.mem) (blockSize h.mem) := ⟨fun _ _ => rfl, fun _ _ => rfl⟩
  have h₁ := h₀.setNext hpHeader htaillt
  have hcsize₁ : blockSize (setNext h.mem previous (next h.mem c.addr)) c.addr = c.size := by
    rw [blockSize_setNext hpHeader hcHeader, hcsize]
  -- a used chunk is apart from the headers that are written
  have houtside : ∀ d ∈ pre ++ c :: post, d.used = true → ∀ x, d.addr ≤ x → x < d.stop →
      (x < previous ∨ previous + 8 ≤ x) ∧ (x < c.addr ∨ c.addr + c.size ≤ x) := by
    intro d hd hused x hx hx'
    have hne : c ≠ d := by
      rintro rfl
      exact Bool.noConfusion (hc.symm.trans hused)
    constructor
    · rcases hpcases with h | ⟨f, hf, hfree, -, h⟩
      · rw [h]
        exact outside_xStart hh hd hx hx'
      · rw [h]
        refine outside_header hh (List.mem_append_left _ hf) hd ?_ hx hx'
        rintro rfl
        exact Bool.noConfusion (hfree.symm.trans hused)
    · have hapart := (hh.tiles.apart hcmem hd).resolve_left hne
      unfold Chunk.stop at hapart hx'
      omega
  obtain ⟨mem₂, links₂, sizes₂, hsplit, h₂, hself₂, hrest₂, hnext₂, hsize₂, houtside₂⟩ :
      ∃ mem₂ links₂ sizes₂, (if 16 < c.size - wanted
          then splitBlock (setNext h.mem previous (next h.mem c.addr)) previous c.addr wanted
          else pure (setNext h.mem previous (next h.mem c.addr))) = Except.ok mem₂ ∧
        Shows L mem₂ links₂ sizes₂ ∧ sizes₂ c.addr = usedSize 16 c wanted ∧
        (if 16 < c.size - wanted then links₂ previous = c.addr + wanted ∧
            links₂ (c.addr + wanted) = next h.mem c.addr ∧
            sizes₂ (c.addr + wanted) = c.size - wanted
          else links₂ previous = next h.mem c.addr) ∧
        (∀ q, q ≠ previous → (16 < c.size - wanted → q ≠ c.addr + wanted) →
          links₂ q = next h.mem q) ∧
        (∀ q, q ≠ c.addr → (16 < c.size - wanted → q ≠ c.addr + wanted) →
          sizes₂ q = blockSize h.mem q) ∧
        ∀ x, (x < previous ∨ previous + 8 ≤ x) → (x < c.addr ∨ c.addr + c.size ≤ x) →
          mem₂ x = h.mem x := by
    unfold usedSize
    split_ifs with hrest
    · have hnHeader : L.Header (c.addr + wanted) :=
        header_of_bounds (by omega) (by omega) (by omega)
      have hpn := lastAddr_apart hh (a := c.addr + wanted) (by omega) (by omega)
      rw [hprev] at hpn
      have hcn : c.addr + wanted ≠ c.addr := by omega
      obtain ⟨mem₂, hsplit, h₂, houtside₂⟩ := splitBlock_eq h₁ hpHeader hcHeader hnHeader
        (by omega) (by omega)
      refine ⟨mem₂, _, _, hsplit, h₂, Function.update_self .., ⟨Function.update_self .., ?_, ?_⟩,
        fun q hqp hqn => ?_, fun q hqc hqn => ?_, fun x hxp hxc => ?_⟩
      · rw [Function.update_of_ne hpn.symm, Function.update_self, Function.update_self]
      · rw [Function.update_of_ne hcn, Function.update_self, hcsize]
      · rw [Function.update_of_ne hqp, Function.update_of_ne (hqn hrest),
          Function.update_of_ne hqp]
      · rw [Function.update_of_ne hqc, Function.update_of_ne (hqn hrest)]
      · rw [houtside₂ x hxp (by omega) (by omega), setNext_of_outside hxp]
    · exact ⟨_, _, _, rfl, h₁, hcsize, Function.update_self ..,
        fun q hqp _ => Function.update_of_ne hqp _ _, fun _ _ _ => rfl,
        fun x hxp _ => setNext_of_outside hxp⟩
  have hused : usedSize 16 c wanted ≤ c.size := by
    unfold usedSize
    split_ifs
    · exact hle
    · exact Nat.le_refl _
  have hsmall : c.size + allocatedBitmask < 2 ^ 32 := by
    obtain ⟨-, -, hlow, -, hhigh⟩ := L.addresses
    have hL := L.small
    unfold allocatedBitmask
    omega
  have hmark : blockSize mem₂ c.addr + allocatedBitmask < 2 ^ 32 := by
    rw [h₂.size _ hcHeader, hself₂]
    omega
  have h₃ := (h₂.setBlockSize hcHeader hmark).setNext hcHeader (v := 0) (by decide)
  refine ⟨setNext (setBlockSize mem₂ c.addr (blockSize mem₂ c.addr + allocatedBitmask)) c.addr 0,
    ?_, ?_, ?_⟩
  · unfold takeBlock heapStructSize
    dsimp only
    rw [hlink, validate_of (by omega) (by omega)]
    show (configAssert (wanted ≤ _) >>= _ : Except Fault (ℕ × Heap)) = _
    rw [hcsize₁, configAssert_of hle]
    rw [← hself₂, ← h₂.size _ hcHeader]
    show (if 16 < c.size - wanted then _ else _ : Except Fault (ℕ × Heap)) = _
    by_cases hrest : 16 < c.size - wanted
    · rw [if_pos hrest] at hsplit ⊢
      rw [hsplit]
      rfl
    · rw [if_neg hrest] at hsplit ⊢
      rw [hsplit]
      rfl
  · refine headers_useChunk hh hpos hle haligned (fun q hq hqp hqc hqn => ?_)
      (fun q hq hqc hqn => ?_) ⟨?_, ?_⟩ ?_
    · rw [hprev] at hqp
      rw [h₃.next q hq, Function.update_of_ne hqc]
      exact hnext₂ q hqp hqn
    · rw [h₃.size q hq, Function.update_of_ne hqc]
      exact hsize₂ q hqc hqn
    · rw [h₃.next _ hcHeader, Function.update_self]
    · rw [h₃.size _ hcHeader, Function.update_self, h₂.size _ hcHeader, hself₂]
    · have hkept : ∀ q, L.Header q → c.addr + c.size ≤ q → q ≤ L.endAddress →
          next (setNext (setBlockSize mem₂ c.addr (blockSize mem₂ c.addr + allocatedBitmask))
            c.addr 0) q = next h.mem q ∧
          blockSize (setNext (setBlockSize mem₂ c.addr (blockSize mem₂ c.addr + allocatedBitmask))
            c.addr 0) q = blockSize h.mem q := by
        intro q hq hlow hhigh
        have hqp := lastAddr_apart hh (a := q) (by omega) hhigh
        rw [hprev] at hqp
        rw [h₃.next q hq, h₃.size q hq, Function.update_of_ne (by omega),
          Function.update_of_ne (by omega)]
        exact ⟨hnext₂ q hqp.symm fun _ => by omega, hsize₂ q (by omega) fun _ => by omega⟩
      have hpost : ∀ f ∈ frees post, L.Header f.addr ∧ c.addr + c.size ≤ f.addr ∧
          f.addr ≤ L.endAddress := by
        intro f hf
        have hf' := (mem_frees.mp hf).1
        have hfmem : f ∈ pre ++ c :: post := List.mem_append_right _ (List.mem_cons_of_mem c hf')
        exact ⟨header_of_mem hh.tiles hh.aligned hfmem,
          ((tiles_middle.mp hh.tiles).2.2.bounds hf').1, (htail.inside f hf).2⟩
      have hnextPost : ∀ a ∈ (frees post).map Chunk.addr ++ [L.endAddress],
          next (setNext (setBlockSize mem₂ c.addr (blockSize mem₂ c.addr + allocatedBitmask))
            c.addr 0) a = next h.mem a := by
        intro a ha
        rcases List.mem_append.mp ha with ha | ha
        · obtain ⟨f, hf, rfl⟩ := List.mem_map.mp ha
          obtain ⟨hq, hlow, hhigh⟩ := hpost f hf
          exact (hkept _ hq hlow hhigh).1
        · rw [List.mem_singleton.mp ha]
          exact (hkept _ header_endAddress (by omega) (Nat.le_refl _)).1
      have hsizePost := fun f (hf : f ∈ frees post) =>
        (hkept f.addr (hpost f hf).1 (hpost f hf).2.1 (hpost f hf).2.2).2
      rw [hprev]
      split_ifs at hrest₂ ⊢ with hrest
      · obtain ⟨hlink₂, hnew₂, hnsize₂⟩ := hrest₂
        have hnHeader : L.Header (c.addr + wanted) :=
          header_of_bounds (by omega) (by omega) (by omega)
        have hcn : c.addr + wanted ≠ c.addr := by omega
        refine freeList_cons.mpr ⟨?_, ?_, ⟨by dsimp only; omega, by dsimp only; omega⟩,
          htail.transport ?_ hnextPost hsizePost⟩
        · rw [h₃.next _ hpHeader, Function.update_of_ne hpc, hlink₂]
        · rw [h₃.size _ hnHeader, Function.update_of_ne hcn, hnsize₂]
        · rw [h₃.next _ hnHeader, Function.update_of_ne hcn, hnew₂]
      · refine htail.transport ?_ hnextPost hsizePost
        rw [h₃.next _ hpHeader, Function.update_of_ne hpc, hrest₂]
  · intro d hd hdused x hx hx'
    obtain ⟨hxp, hxc⟩ := houtside d hd hdused x hx hx'
    rw [setNext_of_outside (by omega), setBlockSize_of_outside (by omega)]
    exact houtside₂ x hxp hxc

end

end WLink.Rtos.Heap4
