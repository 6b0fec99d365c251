import WLink.Net.Ip4Addr
import WLink.Net.DhcpTheorems
import WLink.Httpd.Cgi
import WLink.Misc.CJson

/-!
# The resources of the network configuration

The handlers `Network_CGI_Root`, `Network_CGI_IpAddr`, `Network_CGI_Gateway` and
`Network_CGI_Netmask` of `NeonAppInterface.c`. They differ in the members they ask for and in the
function that takes the addresses. As for the LEDs, the JSON parser and the allocation of the
answer are arguments.

A text that is no address comes out of `ip_string_to_u32` as 0 and is set as such:
`allOrNothing_iff`.
-/

namespace WLink.Net

open WLink.Lib WLink.Misc WLink.Httpd

/-- A member of the JSON of these resources. -/
inductive Member
  | ipAddr
  | gateway
  | netmask
deriving DecidableEq, Repr

def Member.name : Member → List UInt8
  | .ipAddr => ascii "ip_addr"
  | .gateway => ascii "gateway"
  | .netmask => ascii "netmask"

/-- `NeonTCPIP_IF_Get_IP_Address`, `NeonTCPIP_IF_Get_Gateway_Address` and
`NeonTCPIP_IF_Get_NetMask_Address` -/
def Member.get (addr : Addresses) : Member → Ip4Addr
  | .ipAddr => addr.ipAddr
  | .gateway => addr.gw
  | .netmask => addr.netmask

/-- What a resource does with the addresses it was given. -/
abbrev Update := (Member → Ip4Addr) → NeonState → NeonState

/-- The address that the text of a member stands for. -/
def memberAddr (json : CJson) (m : Member) : Ip4Addr :=
  match json.getObjectItem m.name with
  | none => 0
  | some item => ipStringToU32 item.valuestring

/-- The `POST` branch of the handlers. -/
def networkPost (members : List Member) (update : Update) (parse : List UInt8 → Option CJson)
    (memOk : Bool) (s : NeonState) (data : Option (List UInt8)) : CgiReply × NeonState :=
  match data with
  | none => (.response 400, s)
  | some bytes =>
    match parse bytes with
    | none => (.response 422, s)
    | some json =>
      if members.any fun m => (json.getObjectItem m.name).isNone then (.response 422, s)
      else if members.any fun m => (json.getObjectItem m.name).any (·.type ≠ .string) then
        (.response 422, s)
      else if !memOk then (.response 500, s)
      else (.json 201 [(ascii "status", .string (ascii "success"))], update (memberAddr json) s)

/-- The fields of the answer to a `GET`. -/
def networkFields (members : List Member) (addr : Addresses) : List (List UInt8 × JsonField) :=
  members.map fun m => (m.name, .string (ipU32ToString (m.get addr) 20))

/-- What the handlers share: the branches by method. -/
def networkHandler (members : List Member) (update : Update) (parse : List UInt8 → Option CJson)
    (memOk : Bool) (s : NeonState) (req : CgiRequest) : CgiReply × NeonState :=
  if req.method = .post then networkPost members update parse memOk s req.data
  else if req.method = .get then
    if memOk then (.json 200 (networkFields members s.netif.addr), s) else (.response 500, s)
  else (.response 404, s)

/-- `Network_CGI_Root` -/
def networkCgiRoot : (List UInt8 → Option CJson) → Bool → NeonState → CgiRequest →
    CgiReply × NeonState :=
  networkHandler [.ipAddr, .gateway, .netmask]
    fun addr => ifUpdateAddresses (addr .ipAddr) (addr .netmask) (addr .gateway)

/-- `Network_CGI_IpAddr` -/
def networkCgiIpAddr : (List UInt8 → Option CJson) → Bool → NeonState → CgiRequest →
    CgiReply × NeonState :=
  networkHandler [.ipAddr] fun addr => ifSetIpAddress (addr .ipAddr)

/-- `Network_CGI_Gateway` -/
def networkCgiGateway : (List UInt8 → Option CJson) → Bool → NeonState → CgiRequest →
    CgiReply × NeonState :=
  networkHandler [.gateway] fun addr => ifSetGatewayAddress (addr .gateway)

/-- `Network_CGI_Netmask` -/
def networkCgiNetmask : (List UInt8 → Option CJson) → Bool → NeonState → CgiRequest →
    CgiReply × NeonState :=
  networkHandler [.netmask] fun addr => ifSetNetMaskAddress (addr .netmask)

/-- The resources: `/Network`, `/Network/IP_Addr`, `/Network/Gateway` and `/Network/Netmask`. -/
inductive NetworkResource
  | root
  | ipAddr
  | gateway
  | netmask
deriving DecidableEq, Repr

def NetworkResource.handler : NetworkResource → (List UInt8 → Option CJson) → Bool → NeonState →
    CgiRequest → CgiReply × NeonState
  | .root => networkCgiRoot
  | .ipAddr => networkCgiIpAddr
  | .gateway => networkCgiGateway
  | .netmask => networkCgiNetmask

/-- The members that a resource requires. -/
def NetworkResource.members : NetworkResource → List Member
  | .root => [.ipAddr, .gateway, .netmask]
  | .ipAddr => [.ipAddr]
  | .gateway => [.gateway]
  | .netmask => [.netmask]

def NetworkResource.update : NetworkResource → Update
  | .root => fun addr => ifUpdateAddresses (addr .ipAddr) (addr .netmask) (addr .gateway)
  | .ipAddr => fun addr => ifSetIpAddress (addr .ipAddr)
  | .gateway => fun addr => ifSetGatewayAddress (addr .gateway)
  | .netmask => fun addr => ifSetNetMaskAddress (addr .netmask)

theorem NetworkResource.handler_eq (r : NetworkResource) :
    r.handler = networkHandler r.members r.update := by
  cases r with
  | root => rfl
  | ipAddr => rfl
  | gateway => rfl
  | netmask => rfl

/-- A resource sets the addresses that its members give. -/
theorem NetworkResource.get_update (r : NetworkResource) (addr : Member → Ip4Addr)
    (s : NeonState) {m : Member} (hm : m ∈ r.members) :
    m.get (r.update addr s).netif.addr = addr m := by
  cases r with
  | root =>
    cases m with
    | ipAddr => rfl
    | gateway => rfl
    | netmask => rfl
  | ipAddr =>
    obtain rfl := List.mem_singleton.mp hm
    rfl
  | gateway =>
    obtain rfl := List.mem_singleton.mp hm
    rfl
  | netmask =>
    obtain rfl := List.mem_singleton.mp hm
    rfl

/-! ## All or nothing -/

/-- The address that a body submits for a member: the member is there, it is a string, and the
string is an address. -/
def submittedAddr (json : CJson) (m : Member) : Option Ip4Addr :=
  match json.getObjectItem m.name with
  | none => none
  | some item => if item.type = .string then ip4addrAton item.valuestring else none

/-- The addresses that a body submits to a resource: `none` for a body that is no JSON or that
misses one of them. -/
def submitted (r : NetworkResource) (parse : List UInt8 → Option CJson)
    (data : Option (List UInt8)) : Option (List (Member × Ip4Addr)) :=
  match data.bind parse with
  | none => none
  | some json =>
    if r.members.all fun m => (submittedAddr json m).isSome then
      some (r.members.map fun m => (m, (submittedAddr json m).getD 0))
    else none

/-- A body that submits no addresses leaves the interface as it is and is answered by an error;
any other is answered by 201, and a `GET` shows its addresses from then on. -/
def AllOrNothing (r : NetworkResource) (parse : List UInt8 → Option CJson) (s : NeonState)
    (url data : Option (List UInt8)) : Prop :=
  (submitted r parse data = none → ∀ memOk,
      (r.handler parse memOk s ⟨url, .post, data⟩).2.netif.addr = s.netif.addr ∧
      ∃ statusCode, 400 ≤ statusCode ∧
        (r.handler parse memOk s ⟨url, .post, data⟩).1 = .response statusCode) ∧
    ∀ addrs, submitted r parse data = some addrs →
      (∃ fields, (r.handler parse true s ⟨url, .post, data⟩).1 = .json 201 fields) ∧
        (r.handler parse true (r.handler parse true s ⟨url, .post, data⟩).2 ⟨url, .get, none⟩).1 =
          .json 200 (addrs.map fun a => (a.1.name, .string (dottedForm a.2)))

/-- The members are all there and strings, but one of the strings is no address. -/
def HasBadAddress (r : NetworkResource) (parse : List UInt8 → Option CJson)
    (data : Option (List UInt8)) : Prop :=
  ∃ json, data.bind parse = some json ∧
    (∀ m ∈ r.members, ∃ item, json.getObjectItem m.name = some item ∧ item.type = .string) ∧
    ∃ m ∈ r.members, ∃ item, json.getObjectItem m.name = some item ∧
      ip4addrAton item.valuestring = none

/-- The branches of the `POST`, seen from the members. -/
theorem networkPost_json (members : List Member) (update : Update)
    {parse : List UInt8 → Option CJson} (s : NeonState) {bytes : List UInt8} {json : CJson}
    (hparse : parse bytes = some json) :
    ((∃ m ∈ members, ∀ item, json.getObjectItem m.name = some item → item.type ≠ .string) ∧
        ∀ memOk, networkPost members update parse memOk s (some bytes) = (.response 422, s)) ∨
      ((∀ m ∈ members, ∃ item, json.getObjectItem m.name = some item ∧ item.type = .string) ∧
        ∀ memOk, networkPost members update parse memOk s (some bytes) =
          if !memOk then (.response 500, s)
          else (.json 201 [(ascii "status", .string (ascii "success"))],
            update (memberAddr json) s)) := by
  unfold networkPost
  simp only [hparse]
  by_cases hmissing : (members.any fun m => (json.getObjectItem m.name).isNone) = true
  · obtain ⟨m, hm, hnone⟩ := List.any_eq_true.mp hmissing
    refine Or.inl ⟨⟨m, hm, ?_⟩, fun _ => if_pos hmissing⟩
    intro item hitem
    rw [hitem] at hnone
    exact absurd hnone Bool.false_ne_true
  · simp only [if_neg hmissing]
    by_cases htype :
        (members.any fun m => (json.getObjectItem m.name).any (·.type ≠ .string)) = true
    · obtain ⟨m, hm, hany⟩ := List.any_eq_true.mp htype
      refine Or.inl ⟨⟨m, hm, ?_⟩, fun _ => if_pos htype⟩
      intro item hitem
      rw [hitem] at hany
      exact of_decide_eq_true hany
    · simp only [if_neg htype]
      refine Or.inr ⟨fun m hm => ?_, fun _ => trivial⟩
      cases hitem : json.getObjectItem m.name with
      | none => exact absurd (List.any_eq_true.mpr ⟨m, hm, by rw [hitem]; rfl⟩) hmissing
      | some item =>
        refine ⟨item, rfl, Decidable.not_not.mp fun hne => htype ?_⟩
        exact List.any_eq_true.mpr ⟨m, hm, by rw [hitem]; exact decide_eq_true hne⟩

theorem submitted_eq_none {r : NetworkResource} {parse : List UInt8 → Option CJson}
    {data : Option (List UInt8)} {json : CJson} (hparse : data.bind parse = some json)
    {m : Member} (hm : m ∈ r.members) (h : submittedAddr json m = none) :
    submitted r parse data = none := by
  unfold submitted
  simp only [hparse]
  apply if_neg
  intro hall
  have hsome := List.all_eq_true.mp hall m hm
  rw [h] at hsome
  exact Bool.false_ne_true hsome

theorem submittedAddr_string {json : CJson} {m : Member} {item : CJson}
    (hitem : json.getObjectItem m.name = some item) (htype : item.type = .string) :
    submittedAddr json m = ip4addrAton item.valuestring := by
  unfold submittedAddr
  simp only [hitem]
  exact if_pos htype

/-- What is set for a member is what the body submits for it. -/
theorem memberAddr_string {json : CJson} {m : Member} {item : CJson}
    (hitem : json.getObjectItem m.name = some item) (htype : item.type = .string) :
    memberAddr json m = (submittedAddr json m).getD 0 := by
  rw [submittedAddr_string hitem htype]
  unfold memberAddr
  simp only [hitem]
  rfl

/-- A `GET` after addresses have been set shows them. -/
theorem get_after_update (r : NetworkResource) (parse : List UInt8 → Option CJson)
    (addr : Member → Ip4Addr) (s : NeonState) (url : Option (List UInt8)) :
    (r.handler parse true (r.update addr s) ⟨url, .get, none⟩).1 =
      .json 200 (r.members.map fun m => (m.name, .string (dottedForm (addr m)))) := by
  have hget : (r.handler parse true (r.update addr s) ⟨url, .get, none⟩).1 =
      .json 200 (networkFields r.members (r.update addr s).netif.addr) := by
    rw [r.handler_eq]
    rfl
  rw [hget]
  refine congrArg (CgiReply.json 200) (List.map_congr_left fun m hm => ?_)
  rw [r.get_update addr s hm, ipU32ToString_eq]

section Requests

variable {r : NetworkResource} {parse : List UInt8 → Option CJson} {s : NeonState}
  {url data : Option (List UInt8)} {json : CJson}

theorem handler_post (r : NetworkResource) (parse : List UInt8 → Option CJson) (memOk : Bool)
    (s : NeonState) (url data : Option (List UInt8)) :
    r.handler parse memOk s ⟨url, .post, data⟩ =
      networkPost r.members r.update parse memOk s data := by
  rw [r.handler_eq]
  rfl

/-- A request that submits no addresses and is rejected. -/
theorem allOrNothing_of_rejected {statusCode : ℕ} (hsub : submitted r parse data = none)
    (hcode : 400 ≤ statusCode)
    (heq : ∀ memOk, networkPost r.members r.update parse memOk s data =
      (.response statusCode, s)) : AllOrNothing r parse s url data := by
  refine ⟨fun _ memOk => ?_, fun addrs h => ?_⟩
  · rw [handler_post, heq]
    exact ⟨rfl, statusCode, hcode, rfl⟩
  · rw [hsub] at h
    exact nomatch h

/-- A request without a body, or with one that is no JSON. -/
theorem allOrNothing_of_no_json (hbody : data.bind parse = none) :
    AllOrNothing r parse s url data := by
  have hsub : submitted r parse data = none := by
    unfold submitted
    rw [hbody]
  cases data with
  | none =>
    have hcode : 400 ≤ 400 := Nat.le_refl 400
    exact allOrNothing_of_rejected hsub hcode fun _ => rfl
  | some bytes =>
    have hparse : parse bytes = none := hbody
    have hcode : 400 ≤ 422 := by decide
    refine allOrNothing_of_rejected hsub hcode fun memOk => ?_
    unfold networkPost
    simp only [hparse]

/-- Every string is an address. -/
theorem allOrNothing_of_addresses (hbody : data.bind parse = some json)
    (hstrings : ∀ m ∈ r.members, ∃ item, json.getObjectItem m.name = some item ∧
      item.type = .string)
    (haddrs : ∀ m ∈ r.members, (submittedAddr json m).isSome = true)
    (heq : networkPost r.members r.update parse true s data =
      (.json 201 [(ascii "status", .string (ascii "success"))],
        r.update (memberAddr json) s)) : AllOrNothing r parse s url data := by
  have hsub : submitted r parse data =
      some (r.members.map fun m => (m, (submittedAddr json m).getD 0)) := by
    unfold submitted
    simp only [hbody]
    exact if_pos (List.all_eq_true.mpr haddrs)
  refine ⟨fun h => ?_, fun addrs h => ?_⟩
  · rw [hsub] at h
    exact nomatch h
  · obtain rfl := Option.some.inj (hsub.symm.trans h)
    rw [handler_post, heq]
    refine ⟨⟨_, rfl⟩, (get_after_update r parse (memberAddr json) s url).trans ?_⟩
    rw [List.map_map]
    refine congrArg (CgiReply.json 200) (List.map_congr_left fun m hm => ?_)
    obtain ⟨item, hitem, htype⟩ := hstrings m hm
    rw [memberAddr_string hitem htype]
    rfl

/-- A member that is missing or no string excludes a bad address. -/
theorem not_hasBadAddress_of_missing (hbody : data.bind parse = some json) {m : Member}
    (hm : m ∈ r.members)
    (hbad : ∀ item, json.getObjectItem m.name = some item → item.type ≠ .string) :
    ¬ HasBadAddress r parse data := by
  rintro ⟨json', hjson', hall, -⟩
  obtain rfl := Option.some.inj (hbody.symm.trans hjson')
  obtain ⟨item, hitem, htype⟩ := hall m hm
  exact hbad item hitem htype

theorem not_hasBadAddress_of_addresses (hbody : data.bind parse = some json)
    (haddrs : ∀ m ∈ r.members, (submittedAddr json m).isSome = true) :
    ¬ HasBadAddress r parse data := by
  rintro ⟨json', hjson', hall, m, hm, item, hitem, hnone⟩
  obtain rfl := Option.some.inj (hbody.symm.trans hjson')
  obtain ⟨item', hitem', htype⟩ := hall m hm
  obtain rfl := Option.some.inj (hitem.symm.trans hitem')
  have hsome := haddrs m hm
  rw [submittedAddr_string hitem htype, hnone] at hsome
  exact Bool.false_ne_true hsome

end Requests

/-- A request to configure the network is all or nothing unless it has a text that is no
address. -/
theorem allOrNothing_iff (r : NetworkResource) (parse : List UInt8 → Option CJson)
    (s : NeonState) (url data : Option (List UInt8)) :
    AllOrNothing r parse s url data ↔ ¬ HasBadAddress r parse data := by
  cases hbody : data.bind parse with
  | none =>
    refine iff_of_true (allOrNothing_of_no_json hbody) ?_
    rintro ⟨json, hjson, -⟩
    rw [hbody] at hjson
    exact nomatch hjson
  | some json =>
    obtain ⟨bytes, rfl, hparse⟩ := Option.bind_eq_some_iff.mp hbody
    rcases networkPost_json r.members r.update s hparse with
      ⟨⟨m, hm, hbad⟩, heq⟩ | ⟨hstrings, heq⟩
    · -- a member is missing or no string
      have hnone : submittedAddr json m = none := by
        unfold submittedAddr
        cases hitem : json.getObjectItem m.name with
        | none => rfl
        | some item => exact if_neg (hbad item hitem)
      have hcode : 400 ≤ 422 := by decide
      exact iff_of_true
        (allOrNothing_of_rejected (submitted_eq_none hbody hm hnone) hcode heq)
        (not_hasBadAddress_of_missing hbody hm hbad)
    · by_cases haddrs : ∀ m ∈ r.members, (submittedAddr json m).isSome = true
      · exact iff_of_true (allOrNothing_of_addresses hbody hstrings haddrs (heq true))
          (not_hasBadAddress_of_addresses hbody haddrs)
      · -- one of the strings is no address
        simp only [not_forall] at haddrs
        obtain ⟨m, hm, hnone⟩ := haddrs
        have hnone : submittedAddr json m = none := Option.not_isSome_iff_eq_none.mp hnone
        obtain ⟨item, hitem, htype⟩ := hstrings m hm
        have hbad : HasBadAddress r parse (some bytes) :=
          ⟨json, hbody, hstrings, m, hm, item, hitem,
            (submittedAddr_string hitem htype).symm.trans hnone⟩
        refine iff_of_false ?_ (not_not_intro hbad)
        rintro ⟨hfail, -⟩
        obtain ⟨-, statusCode, -, hreply⟩ := hfail (submitted_eq_none hbody hm hnone) true
        rw [handler_post, heq] at hreply
        exact CgiReply.noConfusion hreply

/-- `{"ip_addr":"192.168.1.300"}`, parsed. -/
def ipAddr300 : CJson :=
  .item none .object 0 []
    [.item (some (ascii "ip_addr")) .string 0 (ascii "192.168.1.300") []]

/-- A `POST` of `ipAddr300`. -/
def postIpAddr300 : List UInt8 := ascii "\x7b\"ip_addr\":\"192.168.1.300\"\x7d"

/-- The last number of the address is out of range: 201, and the interface has no address. -/
theorem not_allOrNothing_ipAddr300 :
    ¬ AllOrNothing .ipAddr (fun _ => some ipAddr300) (neonTcpipInit true 1500 homeAddresses)
      (some (ascii "/Network/IP_Addr")) (some postIpAddr300) := by
  rintro ⟨hfail, -⟩
  have hsub : submitted .ipAddr (fun _ => some ipAddr300) (some postIpAddr300) = none := by
    decide +kernel
  have hchanged : (NetworkResource.handler .ipAddr (fun _ => some ipAddr300) true
      (neonTcpipInit true 1500 homeAddresses)
      ⟨some (ascii "/Network/IP_Addr"), .post, some postIpAddr300⟩).2.netif.addr ≠
      (neonTcpipInit true 1500 homeAddresses).netif.addr := by decide +kernel
  exact hchanged (hfail hsub true).1

end WLink.Net
