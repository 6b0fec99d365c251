import WLink.Lib.CString
import WLink.Lib.LinkedList
import WLink.Lib.Run

/-!
# The topics of the application

`app_if_callback_inf_lst` in memory, an item and a text for every topic, and the functions of
`NeonAppInterface.c` that change it or look a topic up. A topic is the list of the bytes before
its `'\0'`.

* `registerCallBack`, `unRegisterCallBack` -- changing the list
* `processWebSocketPostMessage`, `processWebSocketGetMessage` -- passing a message on
* `TopicMap` -- the finite map that the list stands for
-/

namespace WLink.App

open WLink.Lib Exec

/-- `APP_Topic_CallBack_Item_Inf` without its link. -/
structure TopicItem where
  /-- `data_channel_ID`, the address of the text -/
  dataChannelId : ℕ
  /-- `onRecvThisNodePostMsgCB` -/
  post : Option ℕ
  /-- `onRecvThisNodeGetMsgCB` -/
  get : Option ℕ
deriving DecidableEq, Repr

/-- The items, the texts by address, and how many texts have been allocated and not freed. -/
structure TopicStore where
  list : ListStore TopicItem
  text : ℕ → Option (List UInt8)
  texts : ℕ

def TopicStore.empty : TopicStore := ⟨ListStore.empty, fun _ => none, 0⟩

/-- A computation on the items. -/
def onList {α : Type} (x : Exec (ListStore TopicItem) α) : Exec TopicStore α :=
  zoom TopicStore.list (fun s list => { s with list }) x

/-- The allocator has a block for a text, and it is not one that is in use. -/
def TopicStore.canAllocText (s : TopicStore) (offered : Option ℕ) : Bool :=
  offered.any fun n => (s.text n).isNone

/-- Allocate a text and copy the topic to it. -/
def allocText (offered : Option ℕ) (topic : List UInt8) : Exec TopicStore (Option ℕ) :=
  ExceptT.mk fun s =>
    if s.canAllocText offered then
      (.ok offered, match offered with
        | none => s
        | some n => { s with text := Function.update s.text n (some topic), texts := s.texts + 1 })
    else (.ok none, s)

def freeText (id : ℕ) : Exec TopicStore Unit :=
  Exec.update fun s => { s with text := Function.update s.text id none, texts := s.texts - 1 }

/-- `strlen(current->data_channel_ID) == strlen(topic)` and
`memcmp(current->data_channel_ID, topic, strlen(topic)) == 0` -/
def sameTopic (topic text : List UInt8) : Bool :=
  text.length = topic.length && text.take topic.length = topic.take topic.length

/-- The item is the one of the topic. Its text is read. -/
def TopicStore.isFor (s : TopicStore) (topic : List UInt8) (item : TopicItem) : Except Fault Bool :=
  match s.text item.dataChannelId with
  | none => .error .read
  | some text => .ok (sameTopic topic text)

/-- The walk that the functions share: the item of the topic, and the one before. -/
def findTopic (topic : List UInt8) : Exec TopicStore (Option ℕ × Option ℕ) :=
  viewE fun s => seekE s.list.cell (s.isFor topic) s.list.blocks none s.list.head

/-- `Register_Neon_APP_Interface_Msg_CallBack`, with the blocks that the allocator would offer. -/
def registerCallBack (topic : List UInt8) (post get offeredItem offeredText : Option ℕ) :
    Exec TopicStore ℤ := do
  let (last, current) ← findTopic topic
  match current with
  | some c =>
    let node ← onList (readCell c)
    onList (writeCell c { node with val := { node.val with post, get } })
    pure 1
  | none =>
    -- the item is not initialised at first
    match ← onList (allocCell offeredItem ⟨0, none, none⟩) with
    | none => pure (-1)
    | some new =>
      match ← allocText offeredText topic with
      | none =>
        onList (freeCell new)
        pure (-1)
      | some id =>
        onList (writeCell new ⟨⟨id, post, get⟩, none⟩)
        let head ← view fun s => s.list.head
        match head with
        | none => onList (setHead (some new))
        | some _ => onList (setNext last (some new))
        pure 0

/-- `UnRegister_Neon_APP_Interface_Msg_CallBack` -/
def unRegisterCallBack (topic : List UInt8) : Exec TopicStore ℤ := do
  let (last, current) ← findTopic topic
  match current with
  | some c =>
    let node ← onList (readCell c)
    match last with
    | none => onList (setHead node.next)
    | some _ => onList (setNext last node.next)
    freeText node.val.dataChannelId
    onList (freeCell c)
    pure 0
  | none => pure (-1)

/-- What has been done with a message: the callback that was called, the status, and what was added
to the response. -/
structure Processed where
  called : Option ℕ
  status : ℤ
  added : List (List UInt8 × List UInt8)
deriving DecidableEq, Repr

/-- Call a callback if there is one; `result` is what the callbacks return. -/
def callBack (result : ℕ → ℤ) (cb : Option ℕ) : Processed :=
  match cb with
  | none => ⟨none, -1, []⟩
  | some f => ⟨some f, result f, []⟩

/-- `Process_WebSocket_Post_Message` -/
def processWebSocketPostMessage (result : ℕ → ℤ) (msgTopic : List UInt8) :
    Exec TopicStore Processed := do
  let (_, current) ← findTopic msgTopic
  match current with
  | none => pure (callBack result none)
  | some c =>
    let node ← onList (readCell c)
    pure (callBack result node.val.post)

/-- A response to a `GET` gets its method and its topic. -/
def Processed.respond (msgTopic : List UInt8) (p : Processed) : Processed :=
  if 0 ≤ p.status then
    { p with added := [(ascii "method", ascii "GET_RSP"), (ascii "topic", msgTopic)] }
  else p

/-- `Process_WebSocket_Get_Message` -/
def processWebSocketGetMessage (result : ℕ → ℤ) (msgTopic : List UInt8) :
    Exec TopicStore Processed := do
  let (_, current) ← findTopic msgTopic
  match current with
  | none => pure ((callBack result none).respond msgTopic)
  | some c =>
    let node ← onList (readCell c)
    pure ((callBack result node.val.get).respond msgTopic)

/-! ## The finite map -/

/-- The two callbacks of a topic. -/
structure CallBacks where
  post : Option ℕ
  get : Option ℕ
deriving DecidableEq, Repr

/-- A finite map from topics to callbacks. -/
abbrev TopicMap := List UInt8 → Option CallBacks

/-- A call of one of the four functions. -/
inductive TopicCall
  | register (topic : List UInt8) (post get offeredItem offeredText : Option ℕ)
  | unRegister (topic : List UInt8)
  | postMessage (topic : List UInt8)
  | getMessage (topic : List UInt8)
deriving DecidableEq, Repr

/-- What a call returns: a number, or what has been done with a message. -/
inductive TopicReturn
  | int (n : ℤ)
  | message (p : Processed)
deriving DecidableEq, Repr

def TopicCall.run (result : ℕ → ℤ) : TopicCall → Exec TopicStore TopicReturn
  | .register topic post get offeredItem offeredText => do
    let n ← registerCallBack topic post get offeredItem offeredText
    pure (.int n)
  | .unRegister topic => do
    let n ← unRegisterCallBack topic
    pure (.int n)
  | .postMessage topic => do
    let p ← processWebSocketPostMessage result topic
    pure (.message p)
  | .getMessage topic => do
    let p ← processWebSocketGetMessage result topic
    pure (.message p)

/-- The allocator has both blocks for a new topic. -/
def TopicCall.memOk (s : TopicStore) : TopicCall → Bool
  | .register _ _ _ offeredItem offeredText =>
    s.list.canAlloc offeredItem && s.canAllocText offeredText
  | _ => true

/-- What the call has to return and what the map has to become. -/
def TopicCall.spec (result : ℕ → ℤ) (memOk : Bool) (map : TopicMap) :
    TopicCall → TopicReturn × TopicMap
  | .register topic post get _ _ =>
    if (map topic).isSome then (.int 1, Function.update map topic (some ⟨post, get⟩))
    else if memOk then (.int 0, Function.update map topic (some ⟨post, get⟩))
    else (.int (-1), map)
  | .unRegister topic =>
    if (map topic).isSome then (.int 0, Function.update map topic none) else (.int (-1), map)
  | .postMessage topic => (.message (callBack result ((map topic).bind (·.post))), map)
  | .getMessage topic =>
    (.message ((callBack result ((map topic).bind (·.get))).respond topic), map)

/-- An entry: where its item and its text are, the topic and the callbacks. -/
structure TopicEntry where
  addr : ℕ
  id : ℕ
  topic : List UInt8
  cbs : CallBacks

/-- The item of an entry, with its address. -/
def TopicEntry.item (e : TopicEntry) : ℕ × TopicItem := (e.addr, ⟨e.id, e.cbs.post, e.cbs.get⟩)

/-- The store holds these entries and nothing else: every allocated block is in the list or is a
text of it. -/
structure Holds (s : TopicStore) (es : List TopicEntry) : Prop where
  linked : Linked s.list.cell s.list.head (es.map TopicEntry.item) none
  blocks : es.length = s.list.blocks
  text : ∀ e ∈ es, s.text e.id = some e.topic
  texts : es.length = s.texts
  ids : (es.map TopicEntry.id).Nodup

/-- The entries are those of the map, each topic once. -/
structure Entries (es : List TopicEntry) (map : TopicMap) : Prop where
  topics : (es.map TopicEntry.topic).Nodup
  mem : ∀ topic cbs, map topic = some cbs ↔ ∃ e ∈ es, e.topic = topic ∧ e.cbs = cbs

/-- The store represents the map. -/
def Represents (s : TopicStore) (map : TopicMap) : Prop := ∃ es, Holds s es ∧ Entries es map

/-- The store, and the map that it is to represent. -/
structure TopicRun where
  store : TopicStore
  map : TopicMap

def TopicRun.start : TopicRun := ⟨TopicStore.empty, fun _ => none⟩

/-- What the call has to return, and the map after it. -/
def TopicRun.spec (result : ℕ → ℤ) (s : TopicRun) (call : TopicCall) : TopicReturn × TopicMap :=
  call.spec result (call.memOk s.store) s.map

def topicStep (result : ℕ → ℤ) (s : TopicRun) (call : TopicCall) : TopicRun :=
  ⟨(exec (call.run result) s.store).2, (s.spec result call).2⟩

/-- The call returns what the map asks for, the store represents the new map, and a call that fails
leaves the store as it was. -/
structure TopicStepRight (result : ℕ → ℤ) (s : TopicRun) (call : TopicCall) : Prop where
  returns : (exec (call.run result) s.store).1 = .ok (s.spec result call).1
  represents : Represents (topicStep result s call).store (topicStep result s call).map
  fails : (s.spec result call).1 = .int (-1) → (topicStep result s call).store = s.store

end WLink.App
