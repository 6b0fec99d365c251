import WLink.App.Topics

/-!
# The list of topics is a finite map

Every call of a run does to the list in memory what the call does to the map (`topics_refine`):
the list holds the topics that have been registered and not taken back, each once and with its
latest callbacks, every block is in use, and a message goes to the entry of its topic.
-/

namespace WLink.App

open WLink.Lib Exec

theorem exec_onList {α : Type} {x : Exec (ListStore TopicItem) α} {s : TopicStore}
    {r : Except Fault α} {list : ListStore TopicItem} (h : exec x s.list = (r, list)) :
    exec (onList x) s = (r, { s with list }) := exec_zoom h

theorem sameTopic_iff (topic text : List UInt8) : sameTopic topic text = true ↔ text = topic := by
  unfold sameTopic
  constructor
  · intro h
    obtain ⟨hlen, htake⟩ := Bool.and_eq_true_iff.mp h
    have hlen : text.length = topic.length := of_decide_eq_true hlen
    have htake : text.take topic.length = topic.take topic.length := of_decide_eq_true htake
    rw [List.take_length, ← hlen, List.take_length] at htake
    exact htake
  · rintro rfl
    rw [decide_eq_true rfl, decide_eq_true rfl]
    rfl

/-! ## The walk -/

/-- The entries up to the one of a topic, and from there on. -/
structure TopicFound (es : List TopicEntry) (topic : List UInt8) (es₁ es₂ : List TopicEntry) :
    Prop where
  split : es = es₁ ++ es₂
  before : ∀ e ∈ es₁, e.topic ≠ topic
  first : ∀ e ∈ es₂.head?, e.topic = topic

theorem exists_topicFound (es : List TopicEntry) (topic : List UInt8) :
    ∃ es₁ es₂, TopicFound es topic es₁ es₂ := by
  induction es with
  | nil => exact ⟨[], [], rfl, nofun, nofun⟩
  | cons e es ih =>
    by_cases he : e.topic = topic
    · exact ⟨[], e :: es, rfl, nofun, fun e' he' => Option.some.inj he' ▸ he⟩
    · obtain ⟨es₁, es₂, hsplit, hbefore, hfirst⟩ := ih
      exact ⟨e :: es₁, es₂, congrArg (e :: ·) hsplit, List.forall_mem_cons.mpr ⟨he, hbefore⟩,
        hfirst⟩

section

variable {s : TopicStore} {es es₁ es₂ : List TopicEntry} {e : TopicEntry} {topic : List UInt8}

/-- Looking at an entry reads its text. -/
theorem Holds.isFor (h : Holds s es) (he : e ∈ es) (topic : List UInt8) :
    s.isFor topic e.item.2 = .ok (sameTopic topic e.topic) := by
  have htext : s.text e.item.2.dataChannelId = some e.topic := h.text e he
  unfold TopicStore.isFor
  rw [htext]

/-- The walk finds the item of the topic. -/
theorem exec_findTopic (h : Holds s es) (hfound : TopicFound es topic es₁ es₂) :
    exec (findTopic topic) s =
      (.ok (es₁.getLast?.map TopicEntry.addr, es₂.head?.map TopicEntry.addr), s) := by
  have hlinked := h.linked
  have hlen := h.blocks
  obtain ⟨rfl, hbefore, hfirst⟩ := hfound
  rw [List.map_append] at hlinked
  have hseek := @seekE_eq _ _ (s.isFor topic) _ _ _ hlinked ?_ ?_ ?_ s.list.blocks ?_
  · unfold findTopic
    rw [exec_viewE, hseek, List.getLast?_map, List.head?_map, Option.map_map, Option.map_map]
    rfl
  · intro x hx
    rw [← List.map_append] at hx
    obtain ⟨e, he, rfl⟩ := List.mem_map.mp hx
    exact ⟨_, h.isFor he topic⟩
  · intro x hx
    obtain ⟨e, he, rfl⟩ := List.mem_map.mp hx
    rw [h.isFor (List.mem_append_left _ he)]
    exact congrArg _ (Bool.eq_false_iff.mpr fun hsame => hbefore e he ((sameTopic_iff ..).mp hsame))
  · intro x hx
    rw [List.head?_map] at hx
    obtain ⟨e, he, rfl⟩ := Option.map_eq_some_iff.mp hx
    rw [h.isFor (List.mem_append_right _ (List.mem_of_mem_head? he))]
    exact congrArg _ ((sameTopic_iff ..).mpr (hfirst e he))
  · rw [← List.map_append, List.length_map, hlen]

/-- The item of an entry is in memory. -/
theorem Holds.cell (h : Holds s es) (he : e ∈ es) :
    ∃ next, s.list.cell e.addr = some ⟨e.item.2, next⟩ :=
  h.linked.mem_cell (List.mem_map_of_mem he)

/-! ## The calls on the list -/

/-- A topic that is in the list gets other callbacks. -/
theorem exec_register_found (h : Holds s es) (hfound : TopicFound es topic es₁ (e :: es₂))
    (post get offeredItem offeredText : Option ℕ) :
    ∃ s', exec (registerCallBack topic post get offeredItem offeredText) s = (.ok 1, s') ∧
      Holds s' (es₁ ++ { e with cbs := ⟨post, get⟩ } :: es₂) := by
  have hwalk := exec_findTopic h hfound
  obtain ⟨rfl, -, -⟩ := hfound
  have hlinked := h.linked
  rw [List.map_append, List.map_cons] at hlinked
  obtain ⟨next, hcell, hlinked'⟩ := hlinked.update_val ⟨e.id, post, get⟩
  have hread : exec (onList (readCell e.addr)) s = (.ok ⟨e.item.2, next⟩, s) :=
    exec_onList (exec_readCell hcell)
  refine ⟨⟨⟨Function.update s.list.cell e.addr (some ⟨⟨e.id, post, get⟩, next⟩), s.list.head,
    s.list.blocks⟩, s.text, s.texts⟩, ?_, ?_⟩
  · unfold registerCallBack
    rw [exec_bind_ok hwalk]
    dsimp only [List.head?_cons, Option.map_some]
    rw [exec_bind_ok hread, exec_bind_ok (exec_onList (exec_writeCell hcell _))]
    rfl
  · have hids : (es₁ ++ { e with cbs := ⟨post, get⟩ } :: es₂).map TopicEntry.id =
        (es₁ ++ e :: es₂).map TopicEntry.id := by
      rw [List.map_append, List.map_append]
      rfl
    constructor
    · rw [List.map_append, List.map_cons]
      exact hlinked'
    · rw [← h.blocks, List.length_append, List.length_append]
      rfl
    · intro e' he'
      rcases List.mem_append.mp he' with he' | he'
      · exact h.text e' (List.mem_append_left _ he')
      · rcases List.mem_cons.mp he' with rfl | he'
        · exact h.text e (List.mem_append_right _ List.mem_cons_self)
        · exact h.text e' (List.mem_append_right _ (List.mem_cons_of_mem _ he'))
    · rw [← h.texts, List.length_append, List.length_append]
      rfl
    · rw [hids]
      exact h.ids

theorem exec_allocText {id : ℕ} (h : s.text id = none) (topic : List UInt8) :
    exec (allocText (some id) topic) s =
      (.ok (some id), { s with
        text := Function.update s.text id (some topic)
        texts := s.texts + 1 }) := by
  have hcan : s.canAllocText (some id) = true := Option.isNone_iff_eq_none.mpr h
  unfold allocText
  rw [exec_mk, if_pos hcan]

theorem exec_allocText_none {offered : Option ℕ} (h : s.canAllocText offered = false)
    (topic : List UInt8) : exec (allocText offered topic) s = (.ok none, s) := by
  unfold allocText
  rw [exec_mk, if_neg (by rw [h]; exact Bool.false_ne_true)]

/-- A text that nobody has is no text of an entry. -/
theorem Holds.id_ne (h : Holds s es) {id : ℕ} (hid : s.text id = none) (he : e ∈ es) :
    e.id ≠ id := by
  intro hsame
  exact Option.some_ne_none _ ((h.text e he).symm.trans ((congrArg s.text hsame).trans hid))

/-- What the store holds with one more text and one more item at the end. -/
theorem Holds.append {list : ListStore TopicItem} (h : Holds s es) (hid : s.text e.id = none)
    (hlinked : Linked list.cell list.head ((es ++ [e]).map TopicEntry.item) none)
    (hblocks : list.blocks = s.list.blocks + 1) :
    Holds ⟨list, Function.update s.text e.id (some e.topic), s.texts + 1⟩ (es ++ [e]) := by
  refine ⟨hlinked, ?_, fun e' he' => ?_, ?_, ?_⟩
  · rw [List.length_append, h.blocks]
    exact hblocks.symm
  · show Function.update s.text e.id (some e.topic) e'.id = some e'.topic
    rcases List.mem_append.mp he' with he' | he'
    · rw [Function.update_of_ne (h.id_ne hid he')]
      exact h.text e' he'
    · obtain rfl := List.mem_singleton.mp he'
      rw [Function.update_self]
  · rw [List.length_append, h.texts]
    rfl
  · rw [List.map_append]
    refine List.nodup_append.mpr ⟨h.ids, List.nodup_singleton _, ?_⟩
    rintro i hi j hj rfl
    obtain ⟨e', he', rfl⟩ := List.mem_map.mp hi
    exact h.id_ne hid he' (List.mem_singleton.mp hj)

/-- The end of a registration: the new item becomes the last of the list. -/
theorem exec_link {t : TopicStore} (h : Holds s es) (hn : s.list.cell e.addr = none)
    (hcell : t.list.cell = Function.update s.list.cell e.addr (some ⟨e.item.2, none⟩))
    (hhead : t.list.head = s.list.head) :
    ∃ list, exec (do
        let head ← view fun s => s.list.head
        match head with
        | none => onList (setHead (some e.addr))
        | some _ => onList (setNext (es.getLast?.map TopicEntry.addr) (some e.addr))
        pure (0 : ℤ)) t = (.ok 0, { t with list }) ∧
      Linked list.cell list.head ((es ++ [e]).map TopicEntry.item) none ∧
      list.blocks = t.list.blocks := by
  have hlinked := h.linked
  rw [exec_bind_ok (exec_view _ _), hhead]
  rcases List.eq_nil_or_concat es with rfl | ⟨et, x, rfl⟩
  · have hnone : s.list.head = none := hlinked
    rw [hnone]
    refine ⟨{ t.list with head := some e.addr }, rfl, ⟨rfl, none, ?_, rfl⟩, rfl⟩
    rw [hcell]
    exact Function.update_self ..
  · rw [List.concat_eq_append] at hlinked h ⊢
    rw [List.map_append, List.map_cons, List.map_nil] at hlinked
    obtain ⟨next, hx⟩ := h.cell (e := x) (List.mem_append_right _ (List.mem_singleton_self x))
    have hne : x.addr ≠ e.addr := fun hxe =>
      Option.some_ne_none _ (hx.symm.trans ((congrArg s.list.cell hxe).trans hn))
    have hx' : t.list.cell x.addr = some ⟨x.item.2, next⟩ := by
      rw [hcell, Function.update_of_ne hne]
      exact hx
    have hhead' : ∃ c, s.list.head = some c := by
      cases et with
      | nil => exact ⟨_, hlinked.1⟩
      | cons y et => exact ⟨_, hlinked.1⟩
    obtain ⟨c, hc⟩ := hhead'
    rw [hc, List.getLast?_concat]
    refine ⟨{ t.list with
      cell := Function.update t.list.cell x.addr (some ⟨x.item.2, some e.addr⟩) }, ?_, ?_, rfl⟩
    · dsimp only [Option.map_some]
      rw [exec_bind_ok (exec_onList (exec_setNext hx' (some e.addr)))]
      rfl
    · rw [List.map_append, List.map_append, hcell, hhead]
      exact hlinked.append_cell (hlinked.not_mem_of_free hn) e.item.2

/-- A new topic goes to the end of the list, if there is memory for its item and its text. -/
theorem exec_register_new {offeredItem offeredText : Option ℕ} (h : Holds s es)
    (hfound : TopicFound es topic es []) (hitem : s.list.canAlloc offeredItem = true)
    (htext : s.canAllocText offeredText = true) (post get : Option ℕ) :
    ∃ s' addr id, exec (registerCallBack topic post get offeredItem offeredText) s = (.ok 0, s') ∧
      Holds s' (es ++ [⟨addr, id, topic, ⟨post, get⟩⟩]) := by
  have hwalk := exec_findTopic h hfound
  obtain ⟨n, hn, halloc⟩ := exec_allocCell hitem (⟨0, none, none⟩ : TopicItem)
  cases offeredText with
  | none => exact absurd htext Bool.false_ne_true
  | some id =>
    have hid : s.text id = none := Option.isNone_iff_eq_none.mp htext
    have hself : Function.update s.list.cell n (some ⟨(⟨0, none, none⟩ : TopicItem), none⟩) n =
        some ⟨⟨0, none, none⟩, none⟩ := Function.update_self ..
    unfold registerCallBack
    rw [exec_bind_ok hwalk]
    dsimp only [List.head?_nil, Option.map_none]
    rw [exec_bind_ok (exec_onList halloc)]
    dsimp only
    rw [exec_bind_ok (exec_allocText (by exact hid) topic)]
    dsimp only
    rw [exec_bind_ok (exec_onList (exec_writeCell hself ⟨⟨id, post, get⟩, none⟩))]
    dsimp only
    rw [Function.update_idem]
    obtain ⟨list, hexec, hlinked, hblocks⟩ := exec_link (e := ⟨n, id, topic, ⟨post, get⟩⟩)
      (t := ⟨⟨Function.update s.list.cell n (some ⟨⟨id, post, get⟩, none⟩), s.list.head,
        s.list.blocks + 1⟩, Function.update s.text id (some topic), s.texts + 1⟩) h hn rfl rfl
    exact ⟨_, n, id, hexec, h.append hid hlinked hblocks⟩

/-- Without memory for the item or for the text nothing changes. -/
theorem exec_register_noMem {offeredItem offeredText : Option ℕ} (h : Holds s es)
    (hfound : TopicFound es topic es [])
    (hmem : (s.list.canAlloc offeredItem && s.canAllocText offeredText) = false)
    (post get : Option ℕ) :
    exec (registerCallBack topic post get offeredItem offeredText) s = (.ok (-1), s) := by
  have hwalk := exec_findTopic h hfound
  unfold registerCallBack
  rw [exec_bind_ok hwalk]
  dsimp only [List.head?_nil, Option.map_none]
  by_cases hitem : s.list.canAlloc offeredItem = true
  · -- the item is freed again
    have htext : s.canAllocText offeredText = false := by
      rw [hitem, Bool.true_and] at hmem
      exact hmem
    obtain ⟨n, hn, halloc⟩ := exec_allocCell hitem (⟨0, none, none⟩ : TopicItem)
    rw [exec_bind_ok (exec_onList halloc)]
    dsimp only
    rw [exec_bind_ok (exec_allocText_none (by exact htext) topic)]
    dsimp only
    have hback : Function.update s.list.cell n none = s.list.cell := by
      rw [← hn, Function.update_eq_self]
    have hfree : exec (freeCell n) ⟨Function.update s.list.cell n
        (some ⟨⟨0, none, none⟩, none⟩), s.list.head, s.list.blocks + 1⟩ = (.ok (), s.list) := by
      unfold freeCell
      rw [exec_update, Function.update_idem, hback]
      rfl
    rw [exec_bind_ok (exec_onList hfree)]
    rfl
  · rw [exec_bind_ok (exec_onList (exec_allocCell_none (Bool.eq_false_iff.mpr hitem) _))]
    rfl

/-- What the store holds after one entry has gone. -/
theorem Holds.remove {list : ListStore TopicItem} (h : Holds s (es₁ ++ e :: es₂))
    (hlinked : Linked list.cell list.head ((es₁ ++ es₂).map TopicEntry.item) none)
    (hblocks : list.blocks = s.list.blocks - 1) :
    Holds ⟨list, Function.update s.text e.id none, s.texts - 1⟩ (es₁ ++ es₂) := by
  have hids := h.ids
  rw [List.map_append, List.map_cons, List.nodup_middle, ← List.map_append, List.nodup_cons] at hids
  have hlen : (es₁ ++ e :: es₂).length = (es₁ ++ es₂).length + 1 := by
    rw [List.length_append, List.length_append, List.length_cons]
    rfl
  refine ⟨hlinked, ?_, fun e' he' => ?_, ?_, hids.2⟩
  · show _ = list.blocks
    rw [hblocks, ← h.blocks, hlen, Nat.add_sub_cancel]
  · show Function.update s.text e.id none e'.id = some e'.topic
    have hne : e'.id ≠ e.id := fun hsame => hids.1 (List.mem_map.mpr ⟨e', he', hsame⟩)
    rw [Function.update_of_ne hne]
    refine h.text e' ?_
    rcases List.mem_append.mp he' with he' | he'
    · exact List.mem_append_left _ he'
    · exact List.mem_append_right _ (List.mem_cons_of_mem e he')
  · show _ = s.texts - 1
    rw [← h.texts, hlen, Nat.add_sub_cancel]

/-- A topic of the list is taken out, wherever it stands. -/
theorem exec_unRegister_found (h : Holds s es) (hfound : TopicFound es topic es₁ (e :: es₂)) :
    ∃ s', exec (unRegisterCallBack topic) s = (.ok 0, s') ∧ Holds s' (es₁ ++ es₂) := by
  have hwalk := exec_findTopic h hfound
  obtain ⟨rfl, -, -⟩ := hfound
  have hlinked := h.linked
  rw [List.map_append, List.map_cons] at hlinked
  unfold unRegisterCallBack
  rw [exec_bind_ok hwalk]
  dsimp only [List.head?_cons, Option.map_some]
  rcases List.eq_nil_or_concat es₁ with rfl | ⟨es', x, rfl⟩
  · -- the first entry
    obtain ⟨next, hcell, hrest⟩ := hlinked.remove_head
    rw [exec_bind_ok (exec_onList (exec_readCell hcell))]
    refine ⟨_, rfl, h.remove hrest rfl⟩
  · rw [List.concat_eq_append] at hlinked h ⊢
    rw [List.map_append, List.map_cons, List.map_nil] at hlinked
    obtain ⟨next, hcell, hrest⟩ := hlinked.remove_cell
    obtain ⟨next', hcell'⟩ := h.cell (e := x)
      (List.mem_append_left _ (List.mem_append_right _ (List.mem_singleton_self x)))
    rw [exec_bind_ok (exec_onList (exec_readCell hcell)), List.getLast?_concat]
    dsimp only [Option.map_some]
    rw [exec_bind_ok (exec_onList (exec_setNext hcell' next))]
    refine ⟨_, rfl, h.remove ?_ rfl⟩
    rw [List.map_append, List.map_append]
    exact hrest

theorem exec_unRegister_missing (h : Holds s es) (hfound : TopicFound es topic es []) :
    exec (unRegisterCallBack topic) s = (.ok (-1), s) := by
  unfold unRegisterCallBack
  rw [exec_bind_ok (exec_findTopic h hfound)]
  rfl

/-- A message is for the entry of its topic. -/
theorem exec_postMessage (h : Holds s es) (hfound : TopicFound es topic es₁ es₂)
    (result : ℕ → ℤ) :
    exec (processWebSocketPostMessage result topic) s =
      (.ok (callBack result (es₂.head?.bind (·.cbs.post))), s) := by
  unfold processWebSocketPostMessage
  rw [exec_bind_ok (exec_findTopic h hfound)]
  cases es₂ with
  | nil => rfl
  | cons e es₂ =>
    obtain ⟨next, hcell⟩ := h.cell (e := e)
      (hfound.split ▸ List.mem_append_right es₁ List.mem_cons_self)
    dsimp only [List.head?_cons, Option.map_some]
    rw [exec_bind_ok (exec_onList (exec_readCell hcell))]
    rfl

theorem exec_getMessage (h : Holds s es) (hfound : TopicFound es topic es₁ es₂)
    (result : ℕ → ℤ) :
    exec (processWebSocketGetMessage result topic) s =
      (.ok ((callBack result (es₂.head?.bind (·.cbs.get))).respond topic), s) := by
  unfold processWebSocketGetMessage
  rw [exec_bind_ok (exec_findTopic h hfound)]
  cases es₂ with
  | nil => rfl
  | cons e es₂ =>
    obtain ⟨next, hcell⟩ := h.cell (e := e)
      (hfound.split ▸ List.mem_append_right es₁ List.mem_cons_self)
    dsimp only [List.head?_cons, Option.map_some]
    rw [exec_bind_ok (exec_onList (exec_readCell hcell))]
    rfl

end

/-! ## The calls on the map -/

section

variable {map : TopicMap} {es es₁ es₂ : List TopicEntry} {e : TopicEntry} {topic : List UInt8}

/-- A map by one of its entries and the others. -/
structure EntriesAround (e : TopicEntry) (others : List TopicEntry) (map : TopicMap) : Prop where
  topics : (others.map TopicEntry.topic).Nodup
  ne : ∀ x ∈ others, x.topic ≠ e.topic
  self : map e.topic = some e.cbs
  elsewhere : ∀ u, u ≠ e.topic → ∀ cbs, map u = some cbs ↔
    ∃ x ∈ others, x.topic = u ∧ x.cbs = cbs

theorem mem_around {x : TopicEntry} : x ∈ es₁ ++ e :: es₂ ↔ x = e ∨ x ∈ es₁ ++ es₂ := by
  rw [List.mem_append, List.mem_cons, List.mem_append]
  tauto

theorem entries_iff_around :
    Entries (es₁ ++ e :: es₂) map ↔ EntriesAround e (es₁ ++ es₂) map := by
  have hnodup : ((es₁ ++ e :: es₂).map TopicEntry.topic).Nodup ↔
      (∀ x ∈ es₁ ++ es₂, x.topic ≠ e.topic) ∧ ((es₁ ++ es₂).map TopicEntry.topic).Nodup := by
    rw [List.map_append, List.map_cons, List.nodup_middle, ← List.map_append, List.nodup_cons]
    refine and_congr_left fun _ => ?_
    constructor
    · exact fun h x hx heq => h (List.mem_map.mpr ⟨x, hx, heq⟩)
    · intro h hmem
      obtain ⟨x, hx, heq⟩ := List.mem_map.mp hmem
      exact h x hx heq
  constructor
  · intro h
    obtain ⟨hne, htopics⟩ := hnodup.mp h.topics
    refine ⟨htopics, hne, (h.mem _ _).mpr ⟨e, mem_around.mpr (.inl rfl), rfl, rfl⟩, ?_⟩
    intro u hu cbs
    rw [h.mem]
    constructor
    · rintro ⟨x, hx, hxu, hcbs⟩
      rcases mem_around.mp hx with rfl | hx
      · exact absurd hxu.symm hu
      · exact ⟨x, hx, hxu, hcbs⟩
    · rintro ⟨x, hx, h⟩
      exact ⟨x, mem_around.mpr (.inr hx), h⟩
  · intro h
    refine ⟨hnodup.mpr ⟨h.ne, h.topics⟩, fun u cbs => ?_⟩
    by_cases hu : u = e.topic
    · rw [hu, h.self]
      constructor
      · intro hcbs
        exact ⟨e, mem_around.mpr (.inl rfl), rfl, Option.some.inj hcbs⟩
      · rintro ⟨x, hx, hxu, rfl⟩
        rcases mem_around.mp hx with rfl | hx
        · rfl
        · exact absurd hxu (h.ne x hx)
    · rw [h.elsewhere u hu]
      constructor
      · rintro ⟨x, hx, h⟩
        exact ⟨x, mem_around.mpr (.inr hx), h⟩
      · rintro ⟨x, hx, hxu, hcbs⟩
        rcases mem_around.mp hx with rfl | hx
        · exact absurd hxu.symm hu
        · exact ⟨x, hx, hxu, hcbs⟩

/-- The topic of an entry gets other callbacks. -/
theorem EntriesAround.update {others : List TopicEntry} (h : EntriesAround e others map)
    (cbs : CallBacks) :
    EntriesAround { e with cbs } others (Function.update map e.topic (some cbs)) := by
  refine ⟨h.topics, h.ne, Function.update_self .., fun u hu cbs' => ?_⟩
  rw [Function.update_of_ne hu]
  exact h.elsewhere u hu cbs'

/-- An entry goes. -/
theorem EntriesAround.remove {others : List TopicEntry} (h : EntriesAround e others map) :
    Entries others (Function.update map e.topic none) := by
  refine ⟨h.topics, fun u cbs => ?_⟩
  by_cases hu : u = e.topic
  · rw [hu, Function.update_self]
    refine iff_of_false nofun ?_
    rintro ⟨x, hx, hxu, -⟩
    exact h.ne x hx hxu
  · rw [Function.update_of_ne hu]
    exact h.elsewhere u hu cbs

theorem map_of_missing (h : Entries es map) (hfound : TopicFound es topic es []) :
    map topic = none := by
  rw [Option.eq_none_iff_forall_ne_some]
  intro cbs hcbs
  obtain ⟨e, he, htopic, -⟩ := (h.mem topic cbs).mp hcbs
  exact hfound.before e he htopic

/-- An entry with a new topic comes to the end. -/
theorem entries_append (h : Entries es map) (hfound : TopicFound es e.topic es []) :
    Entries (es ++ [e]) (Function.update map e.topic (some e.cbs)) := by
  refine entries_iff_around.mpr ?_
  rw [List.append_nil]
  refine ⟨h.topics, hfound.before, Function.update_self .., fun u hu cbs => ?_⟩
  rw [Function.update_of_ne hu]
  exact h.mem u cbs

end

/-! ## The refinement -/

section

variable {result : ℕ → ℤ} {store : TopicStore} {map : TopicMap}

theorem topicStepRight_of_exec {call : TopicCall} {u : TopicStore}
    (hexec : exec (call.run result) store = (.ok (TopicRun.spec result ⟨store, map⟩ call).1, u))
    (hrep : Represents u (TopicRun.spec result ⟨store, map⟩ call).2)
    (hfails : (TopicRun.spec result ⟨store, map⟩ call).1 = .int (-1) → u = store) :
    TopicStepRight result ⟨store, map⟩ call := by
  have hstore : (topicStep result ⟨store, map⟩ call).store = u := congrArg Prod.snd hexec
  constructor
  · exact congrArg Prod.fst hexec
  · rw [hstore]
    exact hrep
  · rw [hstore]
    exact hfails

theorem topicStepRight_register (h : Represents store map) (topic : List UInt8)
    (post get offeredItem offeredText : Option ℕ) :
    TopicStepRight result ⟨store, map⟩ (.register topic post get offeredItem offeredText) := by
  obtain ⟨es, hstore, hentries⟩ := h
  obtain ⟨es₁, es₂, hfound⟩ := exists_topicFound es topic
  cases es₂ with
  | nil =>
    obtain rfl : es = es₁ := hfound.split.trans (List.append_nil es₁)
    have hnone := map_of_missing hentries hfound
    rcases hmem : store.list.canAlloc offeredItem && store.canAllocText offeredText with _ | _
    · have hspec : TopicRun.spec result ⟨store, map⟩
          (.register topic post get offeredItem offeredText) = (.int (-1), map) := by
        simp [TopicRun.spec, TopicCall.spec, TopicCall.memOk, hnone, hmem]
      refine topicStepRight_of_exec ?_ ?_ fun _ => rfl
      · rw [hspec]
        exact exec_bind_ok (exec_register_noMem hstore hfound hmem post get)
      · rw [hspec]
        exact ⟨es, hstore, hentries⟩
    · obtain ⟨hitem, htext⟩ := Bool.and_eq_true_iff.mp hmem
      obtain ⟨s', addr, id, hexec, hstore'⟩ :=
        exec_register_new hstore hfound hitem htext post get
      have hspec : TopicRun.spec result ⟨store, map⟩
          (.register topic post get offeredItem offeredText) =
          (.int 0, Function.update map topic (some ⟨post, get⟩)) := by
        simp [TopicRun.spec, TopicCall.spec, TopicCall.memOk, hnone, hmem]
      refine topicStepRight_of_exec (u := s') ?_ ?_ ?_
      · rw [hspec]
        exact exec_bind_ok hexec
      · rw [hspec]
        exact ⟨_, hstore', entries_append (e := ⟨addr, id, topic, ⟨post, get⟩⟩) hentries hfound⟩
      · rw [hspec]
        exact nofun
  | cons e es₂ =>
    obtain ⟨s', hexec, hstore'⟩ :=
      exec_register_found hstore hfound post get offeredItem offeredText
    obtain rfl : e.topic = topic := hfound.first e rfl
    obtain ⟨rfl, -, -⟩ := hfound
    have haround := entries_iff_around.mp hentries
    have hspec : TopicRun.spec result ⟨store, map⟩
        (.register e.topic post get offeredItem offeredText) =
        (.int 1, Function.update map e.topic (some ⟨post, get⟩)) := by
      simp [TopicRun.spec, TopicCall.spec, haround.self]
    refine topicStepRight_of_exec (u := s') ?_ ?_ ?_
    · rw [hspec]
      exact exec_bind_ok hexec
    · rw [hspec]
      exact ⟨_, hstore', entries_iff_around.mpr (haround.update ⟨post, get⟩)⟩
    · rw [hspec]
      exact nofun

theorem topicStepRight_unRegister (h : Represents store map) (topic : List UInt8) :
    TopicStepRight result ⟨store, map⟩ (.unRegister topic) := by
  obtain ⟨es, hstore, hentries⟩ := h
  obtain ⟨es₁, es₂, hfound⟩ := exists_topicFound es topic
  cases es₂ with
  | nil =>
    obtain rfl : es = es₁ := hfound.split.trans (List.append_nil es₁)
    have hspec : TopicRun.spec result ⟨store, map⟩ (.unRegister topic) = (.int (-1), map) := by
      simp [TopicRun.spec, TopicCall.spec, map_of_missing hentries hfound]
    refine topicStepRight_of_exec ?_ ?_ fun _ => rfl
    · rw [hspec]
      exact exec_bind_ok (exec_unRegister_missing hstore hfound)
    · rw [hspec]
      exact ⟨es, hstore, hentries⟩
  | cons e es₂ =>
    obtain ⟨s', hexec, hstore'⟩ := exec_unRegister_found hstore hfound
    obtain rfl : e.topic = topic := hfound.first e rfl
    obtain ⟨rfl, -, -⟩ := hfound
    have haround := entries_iff_around.mp hentries
    have hspec : TopicRun.spec result ⟨store, map⟩ (.unRegister e.topic) =
        (.int 0, Function.update map e.topic none) := by
      simp [TopicRun.spec, TopicCall.spec, haround.self]
    refine topicStepRight_of_exec (u := s') ?_ ?_ ?_
    · rw [hspec]
      exact exec_bind_ok hexec
    · rw [hspec]
      exact ⟨_, hstore', haround.remove⟩
    · rw [hspec]
      exact nofun

/-- What the map has for a topic is what the walk finds. -/
theorem map_of_found {es es₁ es₂ : List TopicEntry} {topic : List UInt8} (h : Entries es map)
    (hfound : TopicFound es topic es₁ es₂) : map topic = es₂.head?.map (·.cbs) := by
  cases es₂ with
  | nil =>
    obtain rfl : es = es₁ := hfound.split.trans (List.append_nil es₁)
    exact map_of_missing h hfound
  | cons e es₂ =>
    obtain rfl : e.topic = topic := hfound.first e rfl
    obtain ⟨rfl, -, -⟩ := hfound
    exact (entries_iff_around.mp h).self

theorem topicStepRight (h : Represents store map) (call : TopicCall) :
    TopicStepRight result ⟨store, map⟩ call := by
  cases call with
  | register topic post get offeredItem offeredText =>
    exact topicStepRight_register h topic post get offeredItem offeredText
  | unRegister topic => exact topicStepRight_unRegister h topic
  | postMessage topic =>
    obtain ⟨es, hstore, hentries⟩ := h
    obtain ⟨es₁, es₂, hfound⟩ := exists_topicFound es topic
    refine topicStepRight_of_exec ?_ ⟨es, hstore, hentries⟩ fun _ => rfl
    unfold TopicRun.spec TopicCall.spec
    dsimp only
    rw [map_of_found hentries hfound, Option.bind_map]
    exact exec_bind_ok (exec_postMessage hstore hfound result)
  | getMessage topic =>
    obtain ⟨es, hstore, hentries⟩ := h
    obtain ⟨es₁, es₂, hfound⟩ := exists_topicFound es topic
    refine topicStepRight_of_exec ?_ ⟨es, hstore, hentries⟩ fun _ => rfl
    unfold TopicRun.spec TopicCall.spec
    dsimp only
    rw [map_of_found hentries hfound, Option.bind_map]
    exact exec_bind_ok (exec_getMessage hstore hfound result)

end

theorem represents_empty : Represents TopicStore.empty fun _ => none :=
  ⟨[], ⟨rfl, rfl, nofun, rfl, List.nodup_nil⟩, List.nodup_nil, fun _ _ => iff_of_false nofun nofun⟩

/-- From the empty list on, every call of a run does what the finite map asks for. -/
theorem topics_refine (result : ℕ → ℤ) (calls : List TopicCall) :
    AllSteps (topicStep result) (TopicStepRight result) .start calls := by
  have hall : AllSteps (topicStep result) (fun _ _ => True) TopicRun.start calls :=
    (allSteps_iff_forall (Q := fun _ => True) ..).mpr fun _ _ => trivial
  refine (allSteps_congr (J := fun s : TopicRun => Represents s.store s.map) ?_ ?_
    represents_empty calls).mp hall
  · exact fun s call h => iff_of_true trivial (topicStepRight h call)
  · exact fun s call h _ => (topicStepRight h call).represents

end WLink.App
