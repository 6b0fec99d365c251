import WLink.Rtos.Heap4Theorems
import Mathlib.Data.List.TakeWhile

/-!
# Calls of the heap

What `pvPortMalloc` and `vPortFree` do in terms of the chunks. The first takes the first free chunk
that is large enough, and returns `NULL` only if there is none (`pvPortMalloc_of_small`); the
second takes what the first has returned. Neither ends up in a `configASSERT`, and both keep the
books (`Books`).
-/

namespace WLink.Rtos.Heap4

open Lib

/-- The heap is initialised, and everything is in order for the chunks. -/
structure Books (L : Layout) (h : Heap) (cs : List Chunk) : Prop where
  headers : Headers L h.mem cs
  pxEnd : h.pxEnd = L.endAddress
  coalesced : Coalesced cs
  remaining : h.xFreeBytesRemaining = sizes (frees cs)

variable {L : Layout} {h : Heap} {cs pre post : List Chunk} {c : Chunk} {n : ℕ}

/-- The heap as one free chunk. -/
def Layout.whole (L : Layout) : Chunk := ⟨L.startAddress, L.endAddress - L.startAddress, false⟩

theorem endAddress_ne_zero : L.endAddress ≠ 0 := by
  obtain ⟨-, -, -, hle, -⟩ := L.addresses
  omega

theorem books_prvHeapInit (L : Layout) (h : Heap) : Books L (prvHeapInit L h) [L.whole] := by
  obtain ⟨hstart, hend, hlow, hle, hhigh⟩ := L.addresses
  have hsHeader : L.Header L.startAddress := header_of_bounds (Nat.le_refl _) (by omega) hstart
  have heHeader := header_endAddress (L := L)
  have hxs : L.xStart ≠ L.startAddress := by
    have hapart := L.apart
    omega
  have hxe := xStart_ne_endAddress (L := L)
  have hse : L.startAddress ≠ L.endAddress := by omega
  have hslt := header_lt hsHeader
  have helt := header_lt heHeader
  have h₀ : Shows L h.mem (next h.mem) (blockSize h.mem) := ⟨fun _ _ => rfl, fun _ _ => rfl⟩
  have h₁ := (h₀.setNext header_xStart hslt).setBlockSize header_xStart (v := 0) (by decide)
  have h₂ := (h₁.setBlockSize heHeader (v := 0) (by decide)).setNext heHeader (v := 0) (by decide)
  have h₃ := (h₂.setBlockSize hsHeader (v := L.endAddress - L.startAddress) (by omega)).setNext
    hsHeader helt
  have hinit : Shows L (prvHeapInit L h).mem _ _ := h₃
  have htiles : Tiles L.startAddress [L.whole] L.endAddress :=
    ⟨rfl, Nat.sub_pos_of_lt (by omega),
      Nat.add_sub_of_le (show L.startAddress ≤ L.endAddress by omega)⟩
  have hsize : (prvHeapInit L h).xFreeBytesRemaining = L.endAddress - L.startAddress := by
    show blockSize _ L.startAddress = _
    rw [h₃.size _ hsHeader, Function.update_self]
  refine ⟨⟨htiles, ?_, ?_, ?_, ?_⟩, rfl, List.IsChain.singleton _, ?_⟩
  · intro c hc
    rw [List.mem_singleton.mp hc]
    unfold Layout.whole
    dsimp only
    omega
  · intro c hc hused
    rw [List.mem_singleton.mp hc] at hused
    exact Bool.noConfusion hused
  · refine freeList_cons.mpr ⟨?_, ?_, ⟨Nat.le_refl _, ?_⟩, ⟨?_, trivial⟩, nofun, nofun, ?_⟩
    · show next _ L.xStart = L.startAddress
      rw [hinit.next _ header_xStart, Function.update_of_ne hxs, Function.update_of_ne hxe,
        Function.update_self]
    · show blockSize _ L.startAddress = L.endAddress - L.startAddress
      rw [hinit.size _ hsHeader, Function.update_self]
    · show L.startAddress ≤ L.endAddress
      omega
    · show next _ L.startAddress = L.endAddress
      rw [hinit.next _ hsHeader, Function.update_self]
    · show next _ L.endAddress = 0
      rw [hinit.next _ heHeader, Function.update_of_ne hse.symm, Function.update_self]
  · show blockSize _ L.xStart = 0
    rw [hinit.size _ header_xStart, Function.update_of_ne hxs, Function.update_of_ne hxe,
      Function.update_self]
  · rw [hsize]
    rfl

/-! ## Sizes -/

/-- The size of the block has room for the bytes and the header, and is aligned. -/
theorem wantedSize_spec (n : ℕ) : wantedSize n = 0 ∨
    0 < n ∧ n + 8 ≤ wantedSize n ∧ wantedSize n < n + 16 ∧ wantedSize n % 8 = 0 ∧
      wantedSize n < 2 ^ 32 := by
  unfold wantedSize heapStructSize
  dsimp only
  split_ifs
  · exact .inr (by omega)
  · exact .inl rfl
  · exact .inr (by omega)
  · exact .inl rfl
  · exact .inl rfl

/-- Only sizes that are nearly all of the memory have no block. -/
theorem wantedSize_eq_zero_iff (n : ℕ) : wantedSize n = 0 ↔ n = 0 ∨ 2 ^ 32 - 16 < n := by
  unfold wantedSize heapStructSize
  dsimp only
  split_ifs with hpos hle hal hle'
  · omega
  · omega
  · constructor
    · exact False.elim
    · omega
  · omega
  · omega

theorem sizes_frees_ge (hc : c ∈ cs) (hfree : c.used = false) : c.size ≤ sizes (frees cs) := by
  obtain ⟨pre, post, rfl⟩ := List.append_of_mem hc
  rw [frees_append, frees_cons_of_free hfree, sizes_append, sizes_cons]
  omega

theorem size_lt (hh : Headers L h.mem cs) (hc : c ∈ cs) : c.size < allocatedBitmask := by
  obtain ⟨-, -, hlow, -, hhigh⟩ := L.addresses
  obtain ⟨hclow, -, hchigh⟩ := hh.tiles.bounds hc
  have hsmall := L.small
  unfold Chunk.stop at hchigh
  unfold allocatedBitmask
  omega

/-! ## Allocating -/

/-- The first free chunk that is large enough. -/
theorem first_fit (cs : List Chunk) (wanted : ℕ) :
    (∀ c ∈ cs, c.used = false → c.size < wanted) ∨
      ∃ pre c post, cs = pre ++ c :: post ∧ c.used = false ∧ wanted ≤ c.size ∧
        ∀ d ∈ frees pre, d.size < wanted := by
  induction cs with
  | nil => exact .inl nofun
  | cons c cs ih =>
    by_cases hfits : c.used = false ∧ wanted ≤ c.size
    · exact .inr ⟨[], c, cs, rfl, hfits.1, hfits.2, nofun⟩
    · have hc : c.used = false → c.size < wanted :=
        fun hfree => Nat.lt_of_not_le fun hle => hfits ⟨hfree, hle⟩
      rcases ih with hsmall | ⟨pre, d, post, rfl, hd, hle, hpre⟩
      · exact .inl (List.forall_mem_cons.mpr ⟨hc, hsmall⟩)
      · refine .inr ⟨c :: pre, d, post, rfl, hd, hle, fun f hf => ?_⟩
        obtain ⟨hf, hfree⟩ := mem_frees.mp hf
        rcases List.mem_cons.mp hf with rfl | hf
        · exact hc hfree
        · exact hpre f (mem_frees.mpr ⟨hf, hfree⟩)

/-- Without a free chunk that is large enough nothing is allocated. -/
theorem pvPortMalloc_of_small (hb : Books L h cs)
    (hsmall : wantedSize n = 0 ∨ ∀ c ∈ cs, c.used = false → c.size < wantedSize n) :
    pvPortMalloc L n h = .ok (0, h) := by
  have hinit : ¬ h.pxEnd = 0 := by
    rw [hb.pxEnd]
    exact endAddress_ne_zero
  unfold pvPortMalloc
  dsimp only
  rw [if_neg hinit]
  split_ifs with hwanted
  · have hlist := hb.headers.freeList
    have hall : ∀ f ∈ frees cs, f.size < wantedSize n := by
      rcases hsmall with hzero | hsmall
      · omega
      · exact fun f hf => hsmall f (mem_frees.mp hf).1 (mem_frees.mp hf).2
    have htake : (frees cs).takeWhile (·.size < wantedSize n) = frees cs := by
      rw [List.takeWhile_eq_self_iff]
      exact fun f hf => decide_eq_true (hall f hf)
    have hlast : next h.mem (lastAddr L.xStart (frees cs)) = L.endAddress := by
      have hpath := hlist.path
      rw [path_append] at hpath
      exact hpath.2.1
    have hinside := hlist.next_inside
    have hstop : ¬ L.endAddress ≠ h.pxEnd := not_not.mpr hb.pxEnd.symm
    have hfind := findBlock_eq hlist (wantedSize n) (length_frees_lt hb.headers.tiles)
    rw [htake, hlast] at hfind
    rw [validate_of hinside.1 hinside.2]
    show (findBlock L h.mem _ _ _ _ >>= _ : Except Fault (ℕ × Heap)) = _
    rw [hfind]
    show (if L.endAddress ≠ h.pxEnd then _ else _ : Except Fault (ℕ × Heap)) = _
    rw [if_neg hstop]
    rfl
  · rfl

/-- The first free chunk that is large enough is taken. -/
theorem pvPortMalloc_of_fits (hb : Books L h (pre ++ c :: post)) (hn : wantedSize n ≠ 0)
    (hc : c.used = false) (hle : wantedSize n ≤ c.size)
    (hpre : ∀ d ∈ frees pre, d.size < wantedSize n) :
    ∃ h', pvPortMalloc L n h = .ok (c.addr + 8, h') ∧
      Books L h' (useChunk 16 pre c post (wantedSize n)) ∧
      h' = { h with
        mem := h'.mem
        xFreeBytesRemaining := h.xFreeBytesRemaining - usedSize 16 c (wantedSize n)
        xMinimumEverFreeBytesRemaining := min h'.xFreeBytesRemaining
          h.xMinimumEverFreeBytesRemaining
        xNumberOfSuccessfulAllocations := h.xNumberOfSuccessfulAllocations + 1 } ∧
      ∀ d ∈ pre ++ c :: post, d.used = true → ∀ x, d.addr ≤ x → x < d.stop →
        h'.mem x = h.mem x := by
  have hcmem : c ∈ pre ++ c :: post := List.mem_append_right pre List.mem_cons_self
  have hinit : ¬ h.pxEnd = 0 := by
    rw [hb.pxEnd]
    exact endAddress_ne_zero
  have hspec := (wantedSize_spec n).resolve_left hn
  have hlist := hb.headers.freeList
  have hinside := hlist.next_inside
  have hcbounds := hb.headers.tiles.bounds hcmem
  unfold Chunk.stop at hcbounds
  have hsize := size_lt hb.headers hcmem
  have hremaining := sizes_frees_ge hcmem hc
  have hwanted : wantedSize n < allocatedBitmask ∧ 0 < wantedSize n ∧
      wantedSize n ≤ h.xFreeBytesRemaining := by
    rw [hb.remaining]
    omega
  have hfrees : frees (pre ++ c :: post) = frees pre ++ c :: frees post := by
    rw [frees_append, frees_cons_of_free hc]
  have htake : (frees (pre ++ c :: post)).takeWhile (·.size < wantedSize n) = frees pre := by
    rw [hfrees, List.takeWhile_append_of_pos fun d hd => decide_eq_true (hpre d hd)]
    have hstop : (c :: frees post).takeWhile (·.size < wantedSize n) = [] :=
      List.takeWhile_cons_of_neg (by rw [decide_eq_true_iff]; omega)
    rw [hstop, List.append_nil]
  have hlast : next h.mem (lastAddr L.xStart (frees pre)) = c.addr := by
    have hlistc := hlist
    rw [hfrees] at hlistc
    exact (freeList_cons.mp (freeList_append.mp hlistc).2.2.2).1
  have hfind := findBlock_eq hlist (wantedSize n) (length_frees_lt hb.headers.tiles)
  rw [htake, hlast] at hfind
  have hne : c.addr ≠ h.pxEnd := by
    rw [hb.pxEnd]
    omega
  obtain ⟨mem', htakeBlock, hheaders, hkept⟩ := takeBlock_eq hb.headers hc hwanted.2.1 hle
    hspec.2.2.2.1
  have haligned : (c.addr + 8) % 8 = 0 := by
    have hcaligned := (hb.headers.aligned c hcmem).1
    omega
  refine ⟨{ h with
      mem := mem'
      xFreeBytesRemaining := h.xFreeBytesRemaining - usedSize 16 c (wantedSize n)
      xMinimumEverFreeBytesRemaining := min (h.xFreeBytesRemaining - usedSize 16 c (wantedSize n))
        h.xMinimumEverFreeBytesRemaining
      xNumberOfSuccessfulAllocations := h.xNumberOfSuccessfulAllocations + 1 }, ?_,
    ⟨hheaders, hb.pxEnd, coalesced_useChunk hb.coalesced hc, ?_⟩, rfl, hkept⟩
  · unfold pvPortMalloc
    dsimp only
    rw [if_neg hinit, if_pos hwanted, validate_of hinside.1 hinside.2]
    show (findBlock L h.mem _ _ _ _ >>= _ : Except Fault (ℕ × Heap)) = _
    rw [hfind]
    show (if c.addr ≠ h.pxEnd then _ else _ : Except Fault (ℕ × Heap)) = _
    rw [if_pos hne, htakeBlock]
    show (configAssert ((c.addr + 8) % 8 = 0) >>= _ : Except Fault (ℕ × Heap)) = _
    rw [configAssert_of haligned]
    rfl
  · have hsum : sizes (frees (useChunk 16 pre c post (wantedSize n))) +
        usedSize 16 c (wantedSize n) = sizes (frees pre) + c.size + sizes (frees post) :=
      sizes_frees_useChunk hle
    show h.xFreeBytesRemaining - usedSize 16 c (wantedSize n) = _
    rw [hb.remaining, hfrees, sizes_append, sizes_cons]
    omega

/-! ## Freeing -/

/-- A chunk that the application has is freed. -/
theorem vPortFree_eq (hb : Books L h (pre ++ c :: post)) (hc : c.used = true) :
    ∃ h', vPortFree L (c.addr + 8) h = .ok h' ∧ Books L h' (freeChunk pre c post) ∧
      h' = { h with
        mem := h'.mem
        xFreeBytesRemaining := h.xFreeBytesRemaining + c.size
        xNumberOfSuccessfulFrees := h.xNumberOfSuccessfulFrees + 1 } ∧
      ∀ d ∈ pre ++ c :: post, d.used = true → d ≠ c → ∀ x, d.addr ≤ x → x < d.stop →
        h'.mem x = h.mem x := by
  have hcmem : c ∈ pre ++ c :: post := List.mem_append_right pre List.mem_cons_self
  have hcHeader := header_of_mem hb.headers.tiles hb.headers.aligned hcmem
  have hcbounds := hb.headers.tiles.bounds hcmem
  unfold Chunk.stop at hcbounds
  obtain ⟨hnext, hsize⟩ := hb.headers.allocated c hcmem hc
  have hlt := size_lt hb.headers hcmem
  have hallocated : IsAllocated h.mem c.addr := by
    unfold IsAllocated
    rw [hsize]
    omega
  have hclear : blockSize h.mem c.addr - allocatedBitmask = c.size := by omega
  have hr : Rewritten L h.mem (setBlockSize h.mem c.addr c.size) c.addr 0 c.size := by
    have hset := (rewritten_refl h.mem c.addr).setBlockSize hcHeader (v := c.size) (by
      unfold allocatedBitmask at hlt
      omega)
    rwa [hnext] at hset
  obtain ⟨mem', hinsert, hheaders, hkept⟩ := prvInsertBlockIntoFreeList_eq hb.headers hc hr
  refine ⟨{ h with
      mem := mem'
      xFreeBytesRemaining := h.xFreeBytesRemaining + c.size
      xNumberOfSuccessfulFrees := h.xNumberOfSuccessfulFrees + 1 }, ?_,
    ⟨hheaders, hb.pxEnd, coalesced_freeChunk hb.coalesced, ?_⟩, rfl, hkept⟩
  · have hpv : ¬ c.addr + 8 = 0 := by omega
    unfold vPortFree heapStructSize
    rw [if_neg hpv, Nat.add_sub_cancel]
    dsimp only
    rw [validate_of (by omega) (by omega), configAssert_of hallocated, configAssert_of hnext,
      hclear,
      hb.pxEnd, hr.size_self]
    show (prvInsertBlockIntoFreeList L L.endAddress _ c.addr >>= _ : Except Fault Heap) = _
    rw [hinsert]
    rfl
  · show h.xFreeBytesRemaining + c.size = _
    rw [hb.remaining, sizes_frees_freeChunk, frees_append, frees_cons_of_used hc, sizes_append]
    omega

end WLink.Rtos.Heap4
