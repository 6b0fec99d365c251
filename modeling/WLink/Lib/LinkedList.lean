import WLink.Lib.Exec
import Mathlib.Data.List.Nodup
import Mathlib.Logic.Function.Basic

/-!
# Singly linked lists in memory

A list is a chain of cells that starts at a pointer and ends with `NULL`: `Linked cell p l q` says
that the chain `l` of addresses and values leads from `p` to `q`. The operations are the ones of C
code that walks a list with a second pointer one cell behind (`seek`) and then changes a value or
a link. A walk over more cells than there are blocks goes round in circles and never ends.
-/

namespace WLink.Lib

variable {α : Type}

/-- A cell: a value and the pointer to the next cell. -/
structure Node (α : Type) where
  val : α
  next : Option ℕ

/-- The cells in memory, by address. -/
abbrev Cells (α : Type) := ℕ → Option (Node α)

/-- A list in memory: its cells, the pointer to the first one and the number of blocks that have
been allocated and not freed. -/
structure ListStore (α : Type) where
  cell : Cells α
  head : Option ℕ
  blocks : ℕ

def ListStore.empty : ListStore α := ⟨fun _ => none, none, 0⟩

/-- The cells of `l` lead from `p` to `q`. -/
def Linked (cell : Cells α) : Option ℕ → List (ℕ × α) → Option ℕ → Prop
  | p, [], q => p = q
  | p, x :: l, q => p = some x.1 ∧ ∃ next, cell x.1 = some ⟨x.2, next⟩ ∧ Linked cell next l q

namespace Linked

variable {cell cell' : Cells α} {p q : Option ℕ} {l l₁ l₂ : List (ℕ × α)} {c : ℕ} {a : α}

theorem append_iff :
    Linked cell p (l₁ ++ l₂) q ↔ ∃ r, Linked cell p l₁ r ∧ Linked cell r l₂ q := by
  induction l₁ generalizing p with
  | nil => exact ⟨fun h => ⟨p, rfl, h⟩, fun ⟨r, hr, h⟩ => (show p = r from hr) ▸ h⟩
  | cons x l₁ ih =>
    constructor
    · rintro ⟨hp, next, hcell, hrest⟩
      obtain ⟨r, h₁, h₂⟩ := ih.mp hrest
      exact ⟨r, ⟨hp, next, hcell, h₁⟩, h₂⟩
    · rintro ⟨r, ⟨hp, next, hcell, h₁⟩, h₂⟩
      exact ⟨hp, next, hcell, ih.mpr ⟨r, h₁, h₂⟩⟩

/-- Only the cells of the chain matter. -/
theorem congr (h : Linked cell p l q) (hsame : ∀ x ∈ l, cell' x.1 = cell x.1) :
    Linked cell' p l q := by
  induction l generalizing p with
  | nil => exact h
  | cons x l ih =>
    obtain ⟨hp, next, hcell, hrest⟩ := h
    refine ⟨hp, next, (hsame x List.mem_cons_self).trans hcell, ?_⟩
    exact ih hrest fun y hy => hsame y (List.mem_cons_of_mem x hy)

/-- Every address of a chain is in use. -/
theorem mem_cell (h : Linked cell p l q) {x : ℕ × α} (hx : x ∈ l) :
    ∃ next, cell x.1 = some ⟨x.2, next⟩ := by
  induction l generalizing p with
  | nil => exact absurd hx List.not_mem_nil
  | cons y l ih =>
    obtain ⟨-, next, hcell, hrest⟩ := h
    rcases List.mem_cons.mp hx with rfl | hx
    · exact ⟨next, hcell⟩
    · exact ih hrest hx

/-- An address that is not in use is not in a chain. -/
theorem not_mem_of_free (h : Linked cell p l q) {n : ℕ} (hn : cell n = none) :
    n ∉ l.map Prod.fst := by
  intro hmem
  obtain ⟨x, hx, rfl⟩ := List.mem_map.mp hmem
  obtain ⟨next, hcell⟩ := h.mem_cell hx
  exact nomatch hn.symm.trans hcell

/-- A pointer starts at most one chain to `NULL`. -/
theorem unique (h₁ : Linked cell p l₁ none) (h₂ : Linked cell p l₂ none) : l₁ = l₂ := by
  induction l₁ generalizing p l₂ with
  | nil =>
    cases l₂ with
    | nil => rfl
    | cons x l₂ => exact nomatch (show p = none from h₁).symm.trans h₂.1
  | cons x l₁ ih =>
    obtain ⟨hp, next, hcell, hrest⟩ := h₁
    cases l₂ with
    | nil => exact nomatch hp.symm.trans (show p = none from h₂)
    | cons y l₂ =>
      obtain ⟨hp', next', hcell', hrest'⟩ := h₂
      have haddr : x.1 = y.1 := Option.some.inj (hp.symm.trans hp')
      rw [← haddr] at hcell'
      have hnode := Node.mk.inj (Option.some.inj (hcell.symm.trans hcell'))
      obtain rfl : x = y := Prod.ext haddr hnode.1
      obtain rfl := hnode.2
      rw [ih hrest hrest']

/-- A chain that ends does not come back to one of its cells. -/
theorem nodup (h : Linked cell p l none) : (l.map Prod.fst).Nodup := by
  induction l generalizing p with
  | nil => exact List.nodup_nil
  | cons x l ih =>
    have hall := h
    obtain ⟨hp, next, hcell, hrest⟩ := h
    refine List.nodup_cons.mpr ⟨fun hmem => ?_, ih hrest⟩
    obtain ⟨y, hy, hxy⟩ := List.mem_map.mp hmem
    obtain ⟨l₁, l₂, rfl⟩ := List.append_of_mem hy
    -- the chain from this address on would be longer than itself
    obtain ⟨r, -, hagain⟩ := append_iff.mp hrest
    have hr : r = p := hagain.1.trans ((congrArg some hxy).trans hp.symm)
    have hsame := unique (hr ▸ hagain) hall
    have hlen := congrArg List.length hsame
    simp only [List.length_cons, List.length_append] at hlen
    omega

/-- Another value in a cell. -/
theorem update_val (h : Linked cell p (l₁ ++ (c, a) :: l₂) none) (b : α) :
    ∃ next, cell c = some ⟨a, next⟩ ∧
      Linked (Function.update cell c (some ⟨b, next⟩)) p (l₁ ++ (c, b) :: l₂) none := by
  have hnodup := h.nodup
  rw [List.map_append, List.map_cons, List.nodup_middle, List.nodup_cons] at hnodup
  obtain ⟨r, h₁, hr, next, hcell, h₂⟩ := append_iff.mp h
  refine ⟨next, hcell, append_iff.mpr ⟨r, ?_, hr, next, Function.update_self .., ?_⟩⟩
  · refine h₁.congr fun x hx => Function.update_of_ne (fun hxc => hnodup.1 ?_) _ _
    exact List.mem_append_left _ (List.mem_map.mpr ⟨x, hx, hxc⟩)
  · refine h₂.congr fun x hx => Function.update_of_ne (fun hxc => hnodup.1 ?_) _ _
    exact List.mem_append_right _ (List.mem_map.mpr ⟨x, hx, hxc⟩)

/-- Another link in the last cell of a chain. -/
theorem update_next (h : Linked cell p (l ++ [(c, a)]) q) (hc : c ∉ l.map Prod.fst)
    (next : Option ℕ) :
    Linked (Function.update cell c (some ⟨a, next⟩)) p (l ++ [(c, a)]) next := by
  obtain ⟨r, h₁, hr, -⟩ := append_iff.mp h
  refine append_iff.mpr ⟨r, ?_, hr, next, Function.update_self .., rfl⟩
  refine h₁.congr fun x hx => Function.update_of_ne (fun hxc => hc ?_) _ _
  exact List.mem_map.mpr ⟨x, hx, hxc⟩

/-- A new cell behind the last one. -/
theorem append_cell (h : Linked cell p (l ++ [(c, a)]) none) {n : ℕ}
    (hn : n ∉ (l ++ [(c, a)]).map Prod.fst) (b : α) :
    Linked (Function.update (Function.update cell n (some ⟨b, none⟩)) c (some ⟨a, some n⟩)) p
      ((l ++ [(c, a)]) ++ [(n, b)]) none := by
  have hnodup := h.nodup
  rw [List.map_append, List.map_cons, List.map_nil, List.nodup_append] at hnodup
  have hc : c ∉ l.map Prod.fst := fun hmem =>
    hnodup.2.2 c hmem c (List.mem_singleton_self c) rfl
  have hnc : n ≠ c := by
    rintro rfl
    exact hn (List.mem_map.mpr ⟨(n, a), List.mem_append_right _ (List.mem_singleton_self _), rfl⟩)
  refine append_iff.mpr ⟨some n, ?_, rfl, none, ?_, rfl⟩
  · refine update_next (h.congr fun x hx => Function.update_of_ne (fun hxn => hn ?_) _ _) hc _
    exact List.mem_map.mpr ⟨x, hx, hxn⟩
  · rw [Function.update_of_ne hnc, Function.update_self]

/-- A cell that is not the first one is passed over and freed. -/
theorem remove_cell {d : ℕ} {b : α} (h : Linked cell p (l₁ ++ [(c, a)] ++ (d, b) :: l₂) none) :
    ∃ next, cell d = some ⟨b, next⟩ ∧
      Linked (Function.update (Function.update cell c (some ⟨a, next⟩)) d none) p
        (l₁ ++ [(c, a)] ++ l₂) none := by
  have hnodup := h.nodup
  obtain ⟨r, h₁, -, next, hcell, h₂⟩ := append_iff.mp h
  refine ⟨next, hcell, ?_⟩
  have hsplit : (l₁ ++ [(c, a)] ++ (d, b) :: l₂).map Prod.fst =
      l₁.map Prod.fst ++ c :: d :: l₂.map Prod.fst := by
    simp only [List.map_append, List.map_cons, List.append_assoc, List.cons_append,
      List.nil_append]
  rw [hsplit, List.nodup_append, List.nodup_cons, List.nodup_cons] at hnodup
  obtain ⟨-, ⟨hc, hd, -⟩, hcross⟩ := hnodup
  have hc₁ : c ∉ l₁.map Prod.fst := fun hmem => hcross c hmem c List.mem_cons_self rfl
  have hd₁ : d ∉ l₁.map Prod.fst := fun hmem =>
    hcross d hmem d (List.mem_cons_of_mem c List.mem_cons_self) rfl
  have hdc : d ≠ c := fun hdc => hc (hdc ▸ List.mem_cons_self)
  refine append_iff.mpr ⟨next, ?_, ?_⟩
  · refine (update_next h₁ hc₁ next).congr fun x hx => Function.update_of_ne (fun hxd => ?_) _ _
    rcases List.mem_append.mp hx with hx | hx
    · exact hd₁ (List.mem_map.mpr ⟨x, hx, hxd⟩)
    · obtain rfl := List.mem_singleton.mp hx
      exact hdc hxd.symm
  · refine h₂.congr fun x hx => ?_
    have hxmem : x.1 ∈ l₂.map Prod.fst := List.mem_map.mpr ⟨x, hx, rfl⟩
    have hxd : x.1 ≠ d := fun hxd => hd (hxd ▸ hxmem)
    have hxc : x.1 ≠ c := fun hxc => hc (List.mem_cons_of_mem d (hxc ▸ hxmem))
    rw [Function.update_of_ne hxd, Function.update_of_ne hxc]

end Linked

/-! ## Operations -/

/-- An allocator has a block to offer, and it is not one that is in use. -/
def ListStore.canAlloc (s : ListStore α) (offered : Option ℕ) : Bool :=
  offered.any fun n => (s.cell n).isNone

/-- Allocate a cell for a value: `NULL` if the allocator has nothing to offer. -/
def allocCell (offered : Option ℕ) (a : α) : Exec (ListStore α) (Option ℕ) :=
  ExceptT.mk fun s =>
    match offered with
    | none => (.ok none, s)
    | some n =>
      match s.cell n with
      | some _ => (.ok none, s)
      | none =>
        (.ok (some n), ⟨Function.update s.cell n (some ⟨a, none⟩), s.head, s.blocks + 1⟩)

/-- Read a cell. -/
def readCell (c : ℕ) : Exec (ListStore α) (Node α) :=
  Exec.viewE fun s =>
    match s.cell c with
    | none => .error .read
    | some node => .ok node

/-- Write a cell. -/
def writeCell (c : ℕ) (node : Node α) : Exec (ListStore α) Unit :=
  ExceptT.mk fun s =>
    match s.cell c with
    | none => (.error .write, s)
    | some _ => (.ok (), { s with cell := Function.update s.cell c (some node) })

/-- `p->next = next` -/
def setNext (p next : Option ℕ) : Exec (ListStore α) Unit :=
  match p with
  | none => Exec.lift (.error .write)
  | some c => do
    let node ← readCell c
    writeCell c { node with next }

/-- Make a cell the first one. -/
def setHead (p : Option ℕ) : Exec (ListStore α) Unit := Exec.update fun s => { s with head := p }

/-- Free a cell. -/
def freeCell (c : ℕ) : Exec (ListStore α) Unit :=
  Exec.update fun s =>
    { s with cell := Function.update s.cell c none, blocks := s.blocks - 1 }

section

variable {s : ListStore α} {c : ℕ} {node : Node α}

open Exec

theorem exec_allocCell {offered : Option ℕ} (h : s.canAlloc offered = true) (a : α) :
    ∃ n, s.cell n = none ∧ exec (allocCell offered a) s =
      (.ok (some n), ⟨Function.update s.cell n (some ⟨a, none⟩), s.head, s.blocks + 1⟩) := by
  unfold allocCell
  rw [exec_mk]
  cases offered with
  | none => exact absurd h Bool.false_ne_true
  | some n =>
    have hn : s.cell n = none := Option.isNone_iff_eq_none.mp h
    refine ⟨n, hn, ?_⟩
    simp only [hn]

theorem exec_allocCell_none {offered : Option ℕ} (h : s.canAlloc offered = false) (a : α) :
    exec (allocCell offered a) s = (.ok none, s) := by
  unfold allocCell
  rw [exec_mk]
  cases offered with
  | none => rfl
  | some n =>
    cases hn : s.cell n with
    | none =>
      have hfree : s.canAlloc (some n) = true := Option.isNone_iff_eq_none.mpr hn
      exact absurd (h.symm.trans hfree) Bool.false_ne_true
    | some node => simp only [hn]

theorem exec_readCell (h : s.cell c = some node) :
    exec (readCell c) s = (.ok node, s) := by
  unfold readCell
  rw [exec_viewE, h]

theorem exec_writeCell (h : s.cell c = some node) (node' : Node α) :
    exec (writeCell c node') s =
      (.ok (), { s with cell := Function.update s.cell c (some node') }) := by
  unfold writeCell
  rw [exec_mk]
  simp only [h]

theorem exec_setNext {a : α} {old : Option ℕ} (h : s.cell c = some ⟨a, old⟩) (next : Option ℕ) :
    exec (setNext (some c) next) s =
      (.ok (), { s with cell := Function.update s.cell c (some ⟨a, next⟩) }) := by
  unfold setNext
  rw [exec_bind_ok (exec_readCell h), exec_writeCell h]

end

/-! ## The walk -/

/-- `while(pItemCurrent!=NULL)`: the first cell whose value is looked for, and the cell before. -/
def seek (cell : Cells α) (found : α → Bool) :
    ℕ → Option ℕ → Option ℕ → Except Fault (Option ℕ × Option ℕ)
  | _, last, none => .ok (last, none)
  | 0, _, some _ => .error .hang
  | fuel + 1, last, some c =>
    match cell c with
    | none => .error .read
    | some node =>
      if found node.val then .ok (last, some c) else seek cell found fuel (some c) node.next

/-- The walk passes the cells that are not looked for and stops at the first one that is, or at
the end. -/
theorem seek_eq {cell : Cells α} {found : α → Bool} {p : Option ℕ} {l₁ l₂ : List (ℕ × α)}
    (h : Linked cell p (l₁ ++ l₂) none) (hpass : ∀ x ∈ l₁, found x.2 = false)
    (hstop : ∀ x ∈ l₂.head?, found x.2 = true) {fuel : ℕ} (hfuel : (l₁ ++ l₂).length ≤ fuel)
    (last : Option ℕ) :
    seek cell found fuel last p =
      .ok ((l₁.getLast?.map Prod.fst).or last, l₂.head?.map Prod.fst) := by
  induction l₁ generalizing p fuel last with
  | nil =>
    cases l₂ with
    | nil =>
      obtain rfl : p = none := h
      cases fuel <;> rfl
    | cons x l₂ =>
      obtain ⟨rfl, next, hcell, -⟩ := h
      cases fuel with
      | zero => exact absurd hfuel (Nat.not_succ_le_zero _)
      | succ fuel =>
        rw [seek, hcell]
        exact if_pos (hstop x rfl)
  | cons x l₁ ih =>
    obtain ⟨rfl, next, hcell, hrest⟩ := h
    cases fuel with
    | zero => exact absurd hfuel (Nat.not_succ_le_zero _)
    | succ fuel =>
      have hpass' : ∀ y ∈ l₁, found y.2 = false := fun y hy => hpass y (List.mem_cons_of_mem x hy)
      have hfuel' : (l₁ ++ l₂).length ≤ fuel := Nat.le_of_succ_le_succ hfuel
      rw [seek, hcell]
      simp only [hpass x List.mem_cons_self, Bool.false_eq_true, if_false]
      rw [ih hrest hpass' hfuel']
      cases hl : l₁.getLast? with
      | none =>
        rw [List.getLast?_eq_none_iff.mp hl]
        rfl
      | some y =>
        rw [List.getLast?_cons, hl]
        rfl

/-- The same walk where looking at a value may fault. -/
def seekE (cell : Cells α) (found : α → Except Fault Bool) :
    ℕ → Option ℕ → Option ℕ → Except Fault (Option ℕ × Option ℕ)
  | _, last, none => .ok (last, none)
  | 0, _, some _ => .error .hang
  | fuel + 1, last, some c =>
    match cell c with
    | none => .error .read
    | some node =>
      match found node.val with
      | .error e => .error e
      | .ok true => .ok (last, some c)
      | .ok false => seekE cell found fuel (some c) node.next

/-- What is found, where looking at a value does not fault. -/
def isFound (found : α → Except Fault Bool) (a : α) : Bool :=
  match found a with
  | .ok b => b
  | .error _ => false

/-- The walk does not fault if it does not on the values of the chain. -/
theorem seekE_eq_seek {cell : Cells α} {found : α → Except Fault Bool} {p : Option ℕ}
    {l : List (ℕ × α)} (h : Linked cell p l none) (hfound : ∀ x ∈ l, ∃ b, found x.2 = .ok b)
    (fuel : ℕ) (last : Option ℕ) :
    seekE cell found fuel last p = seek cell (isFound found) fuel last p := by
  induction l generalizing p fuel last with
  | nil =>
    obtain rfl : p = none := h
    cases fuel <;> rfl
  | cons x l ih =>
    obtain ⟨rfl, next, hcell, hrest⟩ := h
    cases fuel with
    | zero => rfl
    | succ fuel =>
      have hrest' := ih hrest (fun y hy => hfound y (List.mem_cons_of_mem x hy)) fuel (some x.1)
      obtain ⟨b, hb⟩ := hfound x List.mem_cons_self
      rw [seekE, seek, hcell]
      simp only [isFound, hb, hrest']
      cases b <;> rfl

theorem seekE_eq {cell : Cells α} {found : α → Except Fault Bool} {p : Option ℕ}
    {l₁ l₂ : List (ℕ × α)} (h : Linked cell p (l₁ ++ l₂) none)
    (hfound : ∀ x ∈ l₁ ++ l₂, ∃ b, found x.2 = .ok b)
    (hpass : ∀ x ∈ l₁, found x.2 = .ok false) (hstop : ∀ x ∈ l₂.head?, found x.2 = .ok true)
    {fuel : ℕ} (hfuel : (l₁ ++ l₂).length ≤ fuel) :
    seekE cell found fuel none p = .ok (l₁.getLast?.map Prod.fst, l₂.head?.map Prod.fst) := by
  rw [seekE_eq_seek h hfound, seek_eq h (fun x hx => ?_) (fun x hx => ?_) hfuel, Option.or_none]
  · unfold isFound
    rw [hpass x hx]
  · unfold isFound
    rw [hstop x hx]

/-- The first cell of a chain is passed over and freed. -/
theorem Linked.remove_head {cell : Cells α} {p : Option ℕ} {l : List (ℕ × α)} {c : ℕ} {a : α}
    (h : Linked cell p ((c, a) :: l) none) :
    ∃ next, cell c = some ⟨a, next⟩ ∧ Linked (Function.update cell c none) next l none := by
  have hnodup := h.nodup
  obtain ⟨-, next, hcell, hrest⟩ := h
  rw [List.map_cons, List.nodup_cons] at hnodup
  refine ⟨next, hcell, hrest.congr fun x hx => Function.update_of_ne (fun hxc => hnodup.1 ?_) _ _⟩
  exact List.mem_map.mpr ⟨x, hx, hxc⟩

end WLink.Lib
