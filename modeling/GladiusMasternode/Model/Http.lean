import GladiusMasternode.Model.IOBuf
/-
# HTTP messages, and the third-party functions the handlers call

| here | there |
| --- | --- |
| `HTTPMessage`      | `proxygen::HTTPMessage`, as far as the handlers read it |
| `getSingleOrEmpty` | `HTTPHeaders::getSingleOrEmpty`: the value if the field occurs exactly once |
| `rawGet`           | `HTTPHeaders::rawGet`, the same under a field name |
| `Response`         | what a `ResponseBuilder` hands to `downstream_` with `sendWithEOM` |
| `External`         | library code that is not in the repository: `proxygen::URL`, the per-hop header rule, SHA-256, myhtml |
-/

namespace GladiusMasternode

inductive HTTPMethod where
  | get | head | post | put | delete | options | trace | connect | patch
  | other (name : String)
deriving DecidableEq, Repr

abbrev HTTPHeaders := List (String × String)

/-- Field names are compared without regard to case. -/
def foldName (s : String) : String := String.ofList (s.toList.map Char.toLower)

def sameName (a b : String) : Bool := foldName a == foldName b

namespace HTTPHeaders

def values (hs : HTTPHeaders) (name : String) : List String :=
  (hs.filter fun h => sameName h.1 name).map Prod.snd

theorem values_cons_same {n name : String} (v : String) (hs : HTTPHeaders)
    (h : sameName n name = true) : values ((n, v) :: hs) name = v :: values hs name := by
  simp only [values, List.filter_cons, h, if_true, List.map_cons]

def getSingleOrEmpty (hs : HTTPHeaders) (name : String) : String :=
  match hs.values name with
  | [v] => v
  | _ => ""

def rawGet (hs : HTTPHeaders) (name : String) : String := hs.getSingleOrEmpty name

/-- The value of a field that occurs is what `rawGet` gives if it occurs once, or is empty. -/
theorem rawGet_eq_iff {hs : HTTPHeaders} {name v : String} (hv : v ∈ hs.values name) :
    hs.rawGet name = v ↔ hs.values name = [v] ∨ v = "" := by
  unfold rawGet getSingleOrEmpty
  rcases hvals : hs.values name with _ | ⟨w, _ | ⟨w', ws⟩⟩
  · rw [hvals] at hv
    cases hv
  · rw [hvals, List.mem_singleton] at hv
    simp [hv]
  · simp [eq_comm]

theorem mem_values {hs : HTTPHeaders} {field : String × String} {name : String}
    (h : field ∈ hs) (hname : sameName field.1 name = true) : field.2 ∈ hs.values name :=
  List.mem_map_of_mem (List.mem_filter.2 ⟨h, hname⟩)

/-- `HTTPHeaders::remove`: every field of that name goes; the flag says whether there was one. -/
def remove (hs : HTTPHeaders) (name : String) : Bool × HTTPHeaders :=
  (hs.any fun h => sameName h.1 name, hs.filter fun h => !sameName h.1 name)

end HTTPHeaders

/-- A request or a response head. -/
structure HTTPMessage where
  method : HTTPMethod := .get
  url : String := ""
  statusCode : Nat := 200
  headers : HTTPHeaders := []
deriving DecidableEq, Repr

/-- A complete response: head, body if any, EOM. -/
structure Response where
  status : Nat
  message : String
  headers : HTTPHeaders := []
  body : Option IOBuf := none
deriving DecidableEq, Repr

namespace Response

/-- The body bytes on the wire. -/
def bodyBytes (r : Response) : Bytes := (r.body.map IOBuf.bytes).getD []

/-- The fields `sendWithEOM` sends, with the length it adds to a response that is complete. -/
def sentHeaders (r : Response) : HTTPHeaders :=
  r.headers ++ [("Content-Length", toString r.bodyBytes.length)]

end Response

/-- `myhtml`, as `ServiceWorker::injectServiceWorker` uses it. -/
structure MyHtml where
  Tree : Type
  Node : Type
  /-- `myhtml_parse`; `none` for a status other than OK -/
  parse : Bytes → Option Tree
  /-- `myhtml_tree_get_node_head` -/
  getNodeHead : Tree → Option Node
  /-- a `<script>` element with this text, appended to the node -/
  appendScript : Tree → Node → String → Tree
  /-- `myhtml_serialization_tree_buffer` of the document -/
  serialize : Tree → Bytes

structure External where
  /-- `proxygen::URL(s).getUrl()` -/
  getUrl : String → String
  /-- whether `HTTPMessage::stripPerHopHeaders` takes the named field out of these headers -/
  perHop : HTTPHeaders → String → Bool
  /-- `OpenSSLHash::sha256` -/
  sha256 : Bytes → Bytes
  myhtml : MyHtml

namespace HTTPMessage

def stripPerHopHeaders (ext : External) (m : HTTPMessage) : HTTPMessage :=
  { m with headers := m.headers.filter fun h => !ext.perHop m.headers h.1 }

def removeHeader (m : HTTPMessage) (name : String) : HTTPMessage :=
  { m with headers := (m.headers.remove name).2 }

@[simp] theorem stripPerHopHeaders_method (ext : External) (m : HTTPMessage) :
    (m.stripPerHopHeaders ext).method = m.method := rfl
@[simp] theorem stripPerHopHeaders_url (ext : External) (m : HTTPMessage) :
    (m.stripPerHopHeaders ext).url = m.url := rfl
@[simp] theorem removeHeader_method (m : HTTPMessage) (n : String) :
    (m.removeHeader n).method = m.method := rfl
@[simp] theorem removeHeader_url (m : HTTPMessage) (n : String) :
    (m.removeHeader n).url = m.url := rfl

end HTTPMessage

end GladiusMasternode
