import Proxora.Ecma.SearchParams
import Proxora.Ecma.Value

/-!
# The Proxmox HTTP client

`server/proxmox/http.ts`: what `ProxmoxHttpClient` sends for a call.  Sessions,
time limits and the handling of answers are left out: a request is its method,
the text of its URL after the authority, and its form body.
-/

namespace Proxora

open Ecma

def toSearch (query : Option (Record Value)) : Text :=
  match query with
  | none => []
  | some query =>
      let params := query.entries.foldl
        (fun params entry =>
          if entry.2.isNullish then params else Params.set params entry.1 entry.2.toText) []
      let encoded := Params.serialize params
      if encoded ≠ [] then '?' :: encoded else []

/-- One property of a form body. -/
def addFormEntry (params : Params) (key : Text) (value : Value) : Params :=
  if value.isNullish then params
  else
    match value with
    | .arr items =>
        items.foldl
          (fun params item =>
            if item.isNullish then params else Params.append params key item.toText) params
    | .str [] => params
    | value => Params.set params key value.toText

/-- The parameters of a form body, in order. -/
def formParams (body : Record Value) : Params :=
  body.entries.foldl (fun params entry => addFormEntry params entry.1 entry.2) []

def toFormBody (body : Option (Record Value)) : Option Text :=
  body.map fun body => Params.serialize (formParams body)

/-- A call of `get`, `post`, `put` or `del`. -/
inductive HttpCall : Type
  | get (path : Text) (query : Option (Record Value))
  | post (path : Text) (body query : Option (Record Value))
  | put (path : Text) (body query : Option (Record Value))
  | del (path : Text) (query : Option (Record Value))

namespace HttpCall

def method : HttpCall → Text
  | .get .. => "GET"
  | .post .. => "POST"
  | .put .. => "PUT"
  | .del .. => "DELETE"

def path : HttpCall → Text
  | .get path _ => path
  | .post path _ _ => path
  | .put path _ _ => path
  | .del path _ => path

def query : HttpCall → Option (Record Value)
  | .get _ query => query
  | .post _ _ query => query
  | .put _ _ query => query
  | .del _ query => query

def body : HttpCall → Option (Record Value)
  | .post _ body _ => body
  | .put _ body _ => body
  | _ => none

end HttpCall

/-- The path of the base URL: `normalizeBaseUrl` gives a URL without query and
fragment. -/
structure BasePath where
  text : Text
  free : ∀ c ∈ text, c ≠ '?' ∧ c ≠ '#'

/-- A host without a path of its own. -/
def rootBase : BasePath := ⟨[], by simp⟩

/-- A request on its way to Proxmox; `target` is the URL after the authority. -/
structure ProxmoxRequest where
  method : Text
  target : Text
  body : Option Text
deriving DecidableEq

/-- `request` without federation. -/
def request (base : BasePath) (call : HttpCall) : ProxmoxRequest where
  method := call.method
  target := base.text ++ "/api2/json" ++ call.path ++ toSearch call.query
  body := if call.method ≠ "GET" then toFormBody call.body else none

theorem toSearch_shape (query : Option (Record Value)) :
    toSearch query = [] ∨ ∃ encoded, toSearch query = '?' :: encoded := by
  unfold toSearch
  cases query with
  | none => exact Or.inl rfl
  | some query =>
      simp only
      split_ifs
      · exact Or.inr ⟨_, rfl⟩
      · exact Or.inl rfl

end Proxora
