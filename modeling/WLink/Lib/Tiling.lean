import Mathlib.Algebra.BigOperators.Group.List.Basic
import Mathlib.Data.List.Chain
import Mathlib.Data.Nat.Notation

/-!
# An interval cut into chunks

`Tiles p cs e` says that the chunks `cs` lie one behind the other from `p` up to `e`. Each is used
or free. A chunk is cut in two (`tiles_cut`), and two neighbours are joined (`tiles_join`), without
a change to the others. When no two free chunks lie beside each other (`Coalesced`), every stretch
that no used chunk reaches into lies in one free chunk (`exists_free_of_gap`). It stays so when the
first part of a chunk is used (`useChunk`), and when a chunk is freed and joined with its free
neighbours (`freeChunk`).
-/

namespace WLink.Lib

/-- A stretch of an interval. -/
structure Chunk where
  addr : ℕ
  size : ℕ
  used : Bool
deriving DecidableEq, Repr

namespace Chunk

/-- The address behind a chunk. -/
def stop (c : Chunk) : ℕ := c.addr + c.size

end Chunk

/-- The chunks lie one behind the other from `p` up to `e`, and none is empty. -/
def Tiles : ℕ → List Chunk → ℕ → Prop
  | p, [], e => p = e
  | p, c :: cs, e => c.addr = p ∧ 0 < c.size ∧ Tiles c.stop cs e

/-- The chunks that are free. -/
def frees (cs : List Chunk) : List Chunk := cs.filter (!·.used)

/-- No two free chunks lie beside each other. -/
def Coalesced (cs : List Chunk) : Prop := cs.IsChain fun c d => c.used = true ∨ d.used = true

def sizes : List Chunk → ℕ
  | [] => 0
  | c :: cs => c.size + sizes cs

section

variable {p e : ℕ} {c d : Chunk} {cs ds : List Chunk}

@[simp] theorem sizes_nil : sizes [] = 0 := rfl

@[simp] theorem sizes_cons : sizes (c :: cs) = c.size + sizes cs := rfl

@[simp] theorem sizes_append : sizes (cs ++ ds) = sizes cs + sizes ds := by
  induction cs with
  | nil => rw [List.nil_append, sizes_nil, Nat.zero_add]
  | cons c cs ih => rw [List.cons_append, sizes_cons, sizes_cons, ih, Nat.add_assoc]

@[simp] theorem frees_nil : frees [] = [] := rfl

@[simp] theorem frees_append : frees (cs ++ ds) = frees cs ++ frees ds := List.filter_append ..

theorem frees_cons_of_used (h : c.used = true) : frees (c :: cs) = frees cs :=
  List.filter_cons_of_neg (by rw [h]; decide)

theorem frees_cons_of_free (h : c.used = false) : frees (c :: cs) = c :: frees cs :=
  List.filter_cons_of_pos (by rw [h]; rfl)

theorem mem_frees : c ∈ frees cs ↔ c ∈ cs ∧ c.used = false := by
  unfold frees
  rw [List.mem_filter, Bool.not_eq_true']

/-! ## Cutting and joining -/

theorem tiles_append :
    Tiles p (cs ++ ds) e ↔ ∃ m, Tiles p cs m ∧ Tiles m ds e := by
  induction cs generalizing p with
  | nil =>
    constructor
    · intro h
      exact ⟨p, rfl, h⟩
    · rintro ⟨m, rfl, h⟩
      exact h
  | cons c cs ih =>
    constructor
    · rintro ⟨haddr, hpos, h⟩
      obtain ⟨m, hcs, hds⟩ := ih.mp h
      exact ⟨m, ⟨haddr, hpos, hcs⟩, hds⟩
    · rintro ⟨m, ⟨haddr, hpos, hcs⟩, hds⟩
      exact ⟨haddr, hpos, ih.mpr ⟨m, hcs, hds⟩⟩

/-- The chunks in front of one, the chunk and those behind it. -/
theorem tiles_middle :
    Tiles p (cs ++ c :: ds) e ↔ Tiles p cs c.addr ∧ 0 < c.size ∧ Tiles c.stop ds e := by
  rw [tiles_append]
  constructor
  · rintro ⟨m, hcs, rfl, hpos, hds⟩
    exact ⟨hcs, hpos, hds⟩
  · rintro ⟨hcs, hpos, hds⟩
    exact ⟨_, hcs, rfl, hpos, hds⟩

theorem Tiles.stop_eq (h : Tiles p cs e) : e = p + sizes cs := by
  induction cs generalizing p with
  | nil => exact h.symm
  | cons c cs ih =>
    obtain ⟨haddr, -, h⟩ := h
    have hstop := ih h
    unfold Chunk.stop at hstop
    rw [sizes_cons]
    omega

/-- A chunk lies between the ends. -/
theorem Tiles.bounds (h : Tiles p cs e) (hc : c ∈ cs) : p ≤ c.addr ∧ 0 < c.size ∧ c.stop ≤ e := by
  obtain ⟨pre, post, rfl⟩ := List.append_of_mem hc
  obtain ⟨hpre, hpos, hpost⟩ := tiles_middle.mp h
  have hfront := hpre.stop_eq
  have hback := hpost.stop_eq
  exact ⟨by omega, hpos, by omega⟩

/-- A chunk in front of another ends before it. -/
theorem Tiles.before (h : Tiles p (cs ++ d :: ds) e) (hc : c ∈ cs) : c.stop ≤ d.addr :=
  ((tiles_middle.mp h).1.bounds hc).2.2

theorem Tiles.pairwise (h : Tiles p cs e) : cs.Pairwise fun c d => c.stop ≤ d.addr := by
  induction cs generalizing p with
  | nil => exact List.Pairwise.nil
  | cons c cs ih =>
    obtain ⟨-, -, h⟩ := h
    exact List.Pairwise.cons (fun d hd => (h.bounds hd).1) (ih h)

/-- Two chunks are the same or apart. -/
theorem Tiles.apart (h : Tiles p cs e) (hc : c ∈ cs) (hd : d ∈ cs) :
    c = d ∨ c.stop ≤ d.addr ∨ d.stop ≤ c.addr := by
  obtain ⟨pre, post, rfl⟩ := List.append_of_mem hc
  obtain ⟨-, -, hpost⟩ := tiles_middle.mp h
  rcases List.mem_append.mp hd with hd | hd
  · exact .inr (.inr (h.before hd))
  · rcases List.mem_cons.mp hd with rfl | hd
    · exact .inl rfl
    · exact .inr (.inl (hpost.bounds hd).1)

/-- A chunk is told by its address. -/
theorem Tiles.eq_of_addr (h : Tiles p cs e) (hc : c ∈ cs) (hd : d ∈ cs) (heq : c.addr = d.addr) :
    c = d := by
  have hcpos := (h.bounds hc).2.1
  have hdpos := (h.bounds hd).2.1
  rcases h.apart hc hd with h | h | h
  · exact h
  · unfold Chunk.stop at h
    omega
  · unfold Chunk.stop at h
    omega

/-- An address between the ends lies in a chunk. -/
theorem Tiles.exists_mem (h : Tiles p cs e) {a : ℕ} (hp : p ≤ a) (he : a < e) :
    ∃ c ∈ cs, c.addr ≤ a ∧ a < c.stop := by
  induction cs generalizing p with
  | nil =>
    have heq : p = e := h
    omega
  | cons c cs ih =>
    obtain ⟨rfl, -, h⟩ := h
    rcases Nat.lt_or_ge a c.stop with hlt | hge
    · exact ⟨c, List.mem_cons_self, hp, hlt⟩
    · obtain ⟨d, hd, hda⟩ := ih h hge
      exact ⟨d, List.mem_cons_of_mem c hd, hda⟩

/-- A chunk is cut in two. -/
theorem tiles_cut {n : ℕ} {used used' : Bool} (h : Tiles p (cs ++ c :: ds) e) (hn : 0 < n)
    (hlt : n < c.size) :
    Tiles p (cs ++ ⟨c.addr, n, used⟩ :: ⟨c.addr + n, c.size - n, used'⟩ :: ds) e := by
  obtain ⟨hcs, -, hds⟩ := tiles_middle.mp h
  refine tiles_middle.mpr ⟨hcs, hn, rfl, Nat.sub_pos_of_lt hlt, ?_⟩
  have hstop : c.addr + n + (c.size - n) = c.stop := by
    unfold Chunk.stop
    omega
  unfold Chunk.stop
  dsimp only
  rw [hstop]
  exact hds

/-- The use of a chunk changes nothing about its place. -/
theorem tiles_use {used : Bool} (h : Tiles p (cs ++ c :: ds) e) :
    Tiles p (cs ++ { c with used } :: ds) e := by
  obtain ⟨hcs, hpos, hds⟩ := tiles_middle.mp h
  exact tiles_middle.mpr ⟨hcs, hpos, hds⟩

/-- Two neighbours become one chunk. -/
theorem tiles_join {used : Bool} (h : Tiles p (cs ++ c :: d :: ds) e) :
    Tiles p (cs ++ ⟨c.addr, c.size + d.size, used⟩ :: ds) e := by
  obtain ⟨hcs, hpos, haddr, -, hds⟩ := tiles_middle.mp h
  refine tiles_middle.mpr ⟨hcs, Nat.add_pos_left hpos _, ?_⟩
  have hstop : c.addr + (c.size + d.size) = d.stop := by
    unfold Chunk.stop at haddr ⊢
    omega
  unfold Chunk.stop
  dsimp only
  rw [hstop]
  exact hds

/-! ## Using a chunk -/

/-- The first `n` of a free chunk are used, or all of it if no more than `least` are left. -/
def useChunk (least : ℕ) (pre : List Chunk) (c : Chunk) (post : List Chunk) (n : ℕ) : List Chunk :=
  if least < c.size - n then
    pre ++ ⟨c.addr, n, true⟩ :: ⟨c.addr + n, c.size - n, false⟩ :: post
  else pre ++ { c with used := true } :: post

/-- A chunk and its neighbours are not free together. -/
theorem coalesced_middle {pre post : List Chunk} :
    Coalesced (pre ++ c :: post) ↔
      Coalesced pre ∧ (∀ b ∈ pre.getLast?, b.used = true ∨ c.used = true) ∧
        (∀ d ∈ post.head?, c.used = true ∨ d.used = true) ∧ Coalesced post := by
  unfold Coalesced
  rw [List.isChain_append, List.isChain_cons]
  simp only [List.head?_cons, Option.mem_def, Option.some.injEq, forall_eq']
  tauto

section

variable {least n : ℕ} {pre post : List Chunk}

theorem tiles_useChunk (h : Tiles p (pre ++ c :: post) e) (hn : 0 < n) :
    Tiles p (useChunk least pre c post n) e := by
  unfold useChunk
  split_ifs with hrest
  · exact tiles_cut h hn (by omega)
  · exact tiles_use h

/-- The rest of a chunk lies in front of a used one. -/
theorem coalesced_useChunk (h : Coalesced (pre ++ c :: post)) (hc : c.used = false) :
    Coalesced (useChunk least pre c post n) := by
  obtain ⟨hpre, -, hback, hpost⟩ := coalesced_middle.mp h
  rw [hc] at hback
  unfold useChunk
  split_ifs
  · have hrest : Coalesced ([] ++ ⟨c.addr + n, c.size - n, false⟩ :: post) :=
      coalesced_middle.mpr ⟨List.IsChain.nil, nofun, hback, hpost⟩
    exact coalesced_middle.mpr ⟨hpre, fun _ _ => .inr rfl, fun _ _ => .inl rfl, hrest⟩
  · exact coalesced_middle.mpr ⟨hpre, fun _ _ => .inr rfl, fun _ _ => .inl rfl, hpost⟩

/-- The size of the chunk that is used. -/
def usedSize (least : ℕ) (c : Chunk) (n : ℕ) : ℕ := if least < c.size - n then n else c.size

theorem frees_useChunk : frees (useChunk least pre c post n) = if least < c.size - n
    then frees pre ++ ⟨c.addr + n, c.size - n, false⟩ :: frees post
    else frees pre ++ frees post := by
  unfold useChunk
  split_ifs
  · rw [frees_append, frees_cons_of_used rfl, frees_cons_of_free rfl]
  · rw [frees_append, frees_cons_of_used rfl]

/-- The chunk goes from the free ones with the size that is used. -/
theorem sizes_frees_useChunk (hn : n ≤ c.size) :
    sizes (frees (useChunk least pre c post n)) + usedSize least c n =
      sizes (frees pre) + c.size + sizes (frees post) := by
  rw [frees_useChunk]
  unfold usedSize
  split_ifs
  · rw [sizes_append, sizes_cons]
    dsimp only
    omega
  · rw [sizes_append]
    omega

/-- The used chunks are those from before and the new one. -/
theorem mem_useChunk_of_used (hd : d.used = true) : d ∈ useChunk least pre c post n ↔
    d ∈ pre ∨ d ∈ post ∨ d = ⟨c.addr, usedSize least c n, true⟩ := by
  unfold useChunk usedSize
  split_ifs
  · have hne : d ≠ ⟨c.addr + n, c.size - n, false⟩ := by
      rintro rfl
      exact Bool.noConfusion hd
    rw [List.mem_append, List.mem_cons, List.mem_cons, or_iff_right hne, or_comm (b := d ∈ post)]
  · rw [List.mem_append, List.mem_cons, or_comm (b := d ∈ post)]

end

/-! ## Freeing a chunk -/

/-- A chunk joined with the one in front of it, if that is free: what is in front of both, and
both. -/
def joinLeft (pre : List Chunk) (c : Chunk) : List Chunk × Chunk :=
  match pre.getLast? with
  | none => (pre, c)
  | some b => if b.used then (pre, c) else (pre.dropLast, ⟨b.addr, b.size + c.size, false⟩)

/-- A chunk joined with the one behind it, if that is free. -/
def joinRight (c : Chunk) : List Chunk → Chunk × List Chunk
  | [] => (c, [])
  | d :: ds => if d.used then (c, d :: ds) else (⟨c.addr, c.size + d.size, false⟩, ds)

/-- The chunk between the others is freed and joined with its free neighbours. -/
def freeChunk (pre : List Chunk) (c : Chunk) (post : List Chunk) : List Chunk :=
  let l := joinLeft pre { c with used := false }
  let r := joinRight l.2 post
  l.1 ++ r.1 :: r.2

theorem joinLeft_nil (c : Chunk) : joinLeft [] c = ([], c) := rfl

theorem joinLeft_of_used {pre : List Chunk} {b : Chunk} (hb : b.used = true) (c : Chunk) :
    joinLeft (pre ++ [b]) c = (pre ++ [b], c) := by
  unfold joinLeft
  rw [List.getLast?_concat]
  exact if_pos hb

theorem joinLeft_of_free {pre : List Chunk} {b : Chunk} (hb : b.used = false) (c : Chunk) :
    joinLeft (pre ++ [b]) c = (pre, ⟨b.addr, b.size + c.size, false⟩) := by
  unfold joinLeft
  rw [List.getLast?_concat, List.dropLast_concat]
  exact if_neg (by rw [hb]; exact Bool.noConfusion)

/-- The neighbour in front: there is none, it is used, or it is free. -/
theorem front_cases (pre : List Chunk) :
    pre = [] ∨ (∃ pre' b, pre = pre' ++ [b] ∧ b.used = true) ∨
      ∃ pre' b, pre = pre' ++ [b] ∧ b.used = false := by
  rcases List.eq_nil_or_concat pre with rfl | ⟨pre', b, rfl⟩
  · exact .inl rfl
  · rw [List.concat_eq_append]
    cases hb : b.used with
    | true => exact .inr (.inl ⟨pre', b, rfl, hb⟩)
    | false => exact .inr (.inr ⟨pre', b, rfl, hb⟩)

/-- The neighbour behind. -/
theorem back_cases (post : List Chunk) :
    post = [] ∨ (∃ d ds, post = d :: ds ∧ d.used = true) ∨
      ∃ d ds, post = d :: ds ∧ d.used = false := by
  cases post with
  | nil => exact .inl rfl
  | cons d ds =>
    cases hd : d.used with
    | true => exact .inr (.inl ⟨d, ds, rfl, hd⟩)
    | false => exact .inr (.inr ⟨d, ds, rfl, hd⟩)

theorem joinRight_of_used (hd : d.used = true) (c : Chunk) :
    joinRight c (d :: ds) = (c, d :: ds) := if_pos hd

theorem joinRight_of_free (hd : d.used = false) (c : Chunk) :
    joinRight c (d :: ds) = (⟨c.addr, c.size + d.size, false⟩, ds) :=
  if_neg (by rw [hd]; exact Bool.noConfusion)

theorem tiles_joinLeft {pre post : List Chunk} (h : Tiles p (pre ++ c :: post) e) :
    Tiles p ((joinLeft pre c).1 ++ (joinLeft pre c).2 :: post) e := by
  rcases front_cases pre with rfl | ⟨pre, b, rfl, hb⟩ | ⟨pre, b, rfl, hb⟩
  · exact h
  · rw [joinLeft_of_used hb]
    exact h
  · rw [joinLeft_of_free hb]
    rw [List.append_assoc, List.singleton_append] at h
    exact tiles_join h

theorem tiles_joinRight {pre post : List Chunk} (h : Tiles p (pre ++ c :: post) e) :
    Tiles p (pre ++ (joinRight c post).1 :: (joinRight c post).2) e := by
  rcases back_cases post with rfl | ⟨d, ds, rfl, hd⟩ | ⟨d, ds, rfl, hd⟩
  · exact h
  · rw [joinRight_of_used hd]
    exact h
  · rw [joinRight_of_free hd]
    exact tiles_join h

theorem tiles_freeChunk {pre post : List Chunk} (h : Tiles p (pre ++ c :: post) e) :
    Tiles p (freeChunk pre c post) e :=
  tiles_joinRight (tiles_joinLeft (tiles_use h))

theorem used_joinLeft {pre : List Chunk} (hc : c.used = false) :
    (joinLeft pre c).2.used = false := by
  rcases front_cases pre with rfl | ⟨pre, b, rfl, hb⟩ | ⟨pre, b, rfl, hb⟩
  · exact hc
  · rw [joinLeft_of_used hb]
    exact hc
  · rw [joinLeft_of_free hb]

theorem used_joinRight {post : List Chunk} (hc : c.used = false) :
    (joinRight c post).1.used = false := by
  rcases back_cases post with rfl | ⟨d, ds, rfl, hd⟩ | ⟨d, ds, rfl, hd⟩
  · exact hc
  · rw [joinRight_of_used hd]
    exact hc
  · rw [joinRight_of_free hd]

theorem coalesced_joinLeft {pre post : List Chunk} (hpre : Coalesced pre) (hpost : Coalesced post)
    (hback : ∀ d ∈ post.head?, d.used = true) :
    Coalesced ((joinLeft pre c).1 ++ (joinLeft pre c).2 :: post) := by
  rcases front_cases pre with rfl | ⟨pre, b, rfl, hb⟩ | ⟨pre, b, rfl, hb⟩
  · exact coalesced_middle.mpr ⟨hpre, nofun, fun d hd => .inr (hback d hd), hpost⟩
  · rw [joinLeft_of_used hb]
    refine coalesced_middle.mpr ⟨hpre, fun b' hb' => .inl ?_, fun d hd => .inr (hback d hd), hpost⟩
    rw [List.getLast?_concat] at hb'
    rw [← Option.some.inj hb']
    exact hb
  · rw [joinLeft_of_free hb]
    obtain ⟨hpre, hfront, -, -⟩ := coalesced_middle.mp hpre
    refine coalesced_middle.mpr ⟨hpre, fun b' hb' => .inl ?_, fun d hd => .inr (hback d hd), hpost⟩
    rcases hfront b' hb' with hused | hused
    · exact hused
    · exact absurd (hb.symm.trans hused) Bool.noConfusion

theorem coalesced_freeChunk {pre post : List Chunk} (h : Coalesced (pre ++ c :: post)) :
    Coalesced (freeChunk pre c post) := by
  obtain ⟨hpre, -, -, hpost⟩ := coalesced_middle.mp h
  have hfree : (joinLeft pre { c with used := false }).2.used = false := used_joinLeft rfl
  have hleft : ∀ post, Coalesced post → (∀ d ∈ post.head?, d.used = true) →
      Coalesced ((joinLeft pre { c with used := false }).1 ++
        (joinLeft pre { c with used := false }).2 :: post) :=
    fun post hpost hback => coalesced_joinLeft hpre hpost hback
  unfold freeChunk
  dsimp only
  generalize joinLeft pre { c with used := false } = l at *
  rcases back_cases post with rfl | ⟨d, ds, rfl, hd⟩ | ⟨d, ds, rfl, hd⟩
  · exact hleft [] hpost nofun
  · rw [joinRight_of_used hd]
    exact hleft (d :: ds) hpost fun d' hd' => by rw [← Option.some.inj hd']; exact hd
  · -- the chunk behind the free neighbour is used
    rw [joinRight_of_free hd]
    obtain ⟨hds, hnext⟩ : Coalesced ds ∧ ∀ d' ∈ ds.head?, d'.used = true := by
      obtain ⟨-, -, hnext, hds⟩ := coalesced_middle.mp (show Coalesced ([] ++ d :: ds) from hpost)
      refine ⟨hds, fun d' hd' => ?_⟩
      rcases hnext d' hd' with hused | hused
      · exact absurd (hd.symm.trans hused) Bool.noConfusion
      · exact hused
    obtain ⟨hl, hfront, -, -⟩ := coalesced_middle.mp (hleft ds hds hnext)
    refine coalesced_middle.mpr ⟨hl, fun b hb => .inl ?_, fun d' hd' => .inr (hnext d' hd'), hds⟩
    rcases hfront b hb with hused | hused
    · exact hused
    · exact absurd (hfree.symm.trans hused) Bool.noConfusion

/-- The chunk goes to the free ones with its size. -/
theorem sizes_frees_freeChunk (pre : List Chunk) (c : Chunk) (post : List Chunk) :
    sizes (frees (freeChunk pre c post)) = sizes (frees pre) + c.size + sizes (frees post) := by
  unfold freeChunk
  dsimp only
  rw [frees_append, frees_cons_of_free (used_joinRight (used_joinLeft rfl)), sizes_append,
    sizes_cons]
  have hleft : sizes (frees (joinLeft pre { c with used := false }).1) +
      (joinLeft pre { c with used := false }).2.size = sizes (frees pre) + c.size := by
    rcases front_cases pre with rfl | ⟨pre, b, rfl, hb⟩ | ⟨pre, b, rfl, hb⟩
    · rfl
    · rw [joinLeft_of_used hb]
    · rw [joinLeft_of_free hb, frees_append, frees_cons_of_free hb, frees_nil, sizes_append,
        sizes_cons, sizes_nil]
      dsimp only
      omega
  have hright : ∀ l : Chunk, (joinRight l post).1.size + sizes (frees (joinRight l post).2) =
      l.size + sizes (frees post) := by
    intro l
    rcases back_cases post with rfl | ⟨d, ds, rfl, hd⟩ | ⟨d, ds, rfl, hd⟩
    · rfl
    · rw [joinRight_of_used hd]
    · rw [joinRight_of_free hd, frees_cons_of_free hd, sizes_cons]
      dsimp only
      omega
  rw [hright, ← Nat.add_assoc, hleft]

/-- The used chunks are those from before, without the one that has been freed. -/
theorem mem_freeChunk_of_used {pre post : List Chunk} (hd : d.used = true) :
    d ∈ freeChunk pre c post ↔ d ∈ pre ∨ d ∈ post := by
  have hne : ∀ {b : Chunk}, b.used = false → d ≠ b := by
    rintro b hb rfl
    exact absurd (hb.symm.trans hd) Bool.noConfusion
  have hleft : d ∈ (joinLeft pre { c with used := false }).1 ↔ d ∈ pre := by
    rcases front_cases pre with rfl | ⟨pre, b, rfl, hb⟩ | ⟨pre, b, rfl, hb⟩
    · rfl
    · rw [joinLeft_of_used hb]
    · rw [joinLeft_of_free hb, List.mem_append, List.mem_singleton, or_iff_left (hne hb)]
  have hright : ∀ l : Chunk, d ∈ (joinRight l post).2 ↔ d ∈ post := by
    intro l
    rcases back_cases post with rfl | ⟨b, ds, rfl, hb⟩ | ⟨b, ds, rfl, hb⟩
    · rfl
    · rw [joinRight_of_used hb]
    · rw [joinRight_of_free hb, List.mem_cons, or_iff_right (hne hb)]
  unfold freeChunk
  dsimp only
  rw [List.mem_append, List.mem_cons, hleft, hright,
    or_iff_right (hne (used_joinRight (used_joinLeft rfl)))]

/-! ## Free stretches -/

/-- A stretch that no used chunk reaches into lies in a free chunk. -/
theorem exists_free_of_gap (h : Tiles p cs e) (hjoined : Coalesced cs) {a n : ℕ} (hn : 0 < n)
    (hp : p ≤ a) (he : a + n ≤ e)
    (hgap : ∀ c ∈ cs, c.used = true → c.stop ≤ a ∨ a + n ≤ c.addr) :
    ∃ c ∈ cs, c.used = false ∧ c.addr ≤ a ∧ a + n ≤ c.stop := by
  obtain ⟨c, hc, hca, hac⟩ := h.exists_mem hp (by omega)
  have hfree : c.used = false := by
    rw [← Bool.not_eq_true]
    intro hused
    have hout := hgap c hc hused
    omega
  refine ⟨c, hc, hfree, hca, ?_⟩
  -- behind the chunk there is the end or a used chunk
  obtain ⟨pre, post, rfl⟩ := List.append_of_mem hc
  obtain ⟨-, -, hpost⟩ := tiles_middle.mp h
  cases post with
  | nil =>
    have hend : c.stop = e := hpost
    omega
  | cons d ds =>
    have hused : d.used = true := by
      have hpair := (List.isChain_append_cons_cons.mp hjoined).2.1
      rw [hfree] at hpair
      exact hpair.resolve_left Bool.noConfusion
    have hout := hgap d (by simp) hused
    have haddr : d.addr = c.stop := hpost.1
    have hstop : d.addr < d.stop := Nat.lt_add_of_pos_right hpost.2.1
    omega

end

end WLink.Lib
