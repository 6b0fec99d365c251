import WLink.Httpd.RequestLine
import WLink.Httpd.Head

/-!
# The mime type of a URL

`MimeRight` says that `HTTPdGetMimetype` finds the mime type of the extension of a URL wherever the
URL is, also where nothing else is. The walk back to the last dot begins in front of the end of the
URL, so that an empty one, which is what the parser makes of the target `?x`, is missed.
-/

namespace WLink.Httpd

open Lib CString Exec

/-- `HTTPdGetMimetype` returns the type of the extension, in any memory that has the URL somewhere.
The URL may be all that is in the memory, so that nothing else is read. -/
def MimeRight (u : List UInt8) : Prop :=
  ∀ m url, StrAt m url u → getMimetype m url = .ok (mimeOf (extension u))

theorem strAt_self {u : List UInt8} (hu : 0 ∉ u) : StrAt (u ++ [0]) 0 u := ⟨hu, [], rfl⟩

/-- The walk from an empty URL leaves the memory. -/
theorem not_mimeRight_nil : ¬ MimeRight [] := by
  intro h
  have hread : getMimetype [0] 0 = .error .read := by decide
  exact absurd (hread.symm.trans (h [0] 0 (strAt_self List.not_mem_nil))) nofun

/-- The type is found for every URL but the empty one. -/
theorem mimeRight_iff (u : List UInt8) : MimeRight u ↔ u ≠ [] := by
  constructor
  · rintro h rfl
    exact not_mimeRight_nil h
  · exact fun hu m url hstr => getMimetype_eq hstr hu

/-- The request that has only arguments. -/
def queryOnly : ParseState := .start .fresh (ascii "GET ?x HTTP/1.1\r\n\r\n" ++ [0])

/-- Its URL is empty, and the walk goes through the whole of the memory in front of it. -/
theorem not_mimeRight_queryOnly :
    ¬ MimeRight [] ∧ ∃ url, (exec parseInMsgHeaders queryOnly).2.conn.url = some url ∧
      StrAt (exec parseInMsgHeaders queryOnly).2.mem url [] ∧
      getMimetype (exec parseInMsgHeaders queryOnly).2.mem url = .error .read := by
  refine ⟨not_mimeRight_nil, 4, by decide +kernel, ⟨List.not_mem_nil, ?_⟩, by decide +kernel⟩
  exact ⟨_, rfl⟩

end WLink.Httpd
