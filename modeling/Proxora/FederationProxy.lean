import Proxora.FederationAccess
import Proxora.ProxmoxClient

/-!
# The federation proxy

A call to a peer's host travels as JSON: `federationRequest` of
`server/proxmox/http.ts` writes it, the route
`app/api/federation/pve/[hostId]/route.ts` checks its shape and the share, and
`proxyPveRequest` sends it on to Proxmox.

`federatedRequest_eq` compares the request Proxmox gets this way with the one a
direct client sends: they are the same for a path without `..` and for values
that JSON can carry.
-/

namespace Proxora

open Ecma

/-! ## The payload -/

/-- The JSON body of a federated call, as the peer parses it. -/
structure ProxyPayload where
  method : Text
  path : Text
  query : Option (Record Value)
  body : Option (Record Value)

/-- `federationRequest`: the payload of a call, written as JSON and read back. -/
def federationRequest (call : HttpCall) : ProxyPayload where
  method := call.method
  path := call.path
  query := some (call.query.getD .empty).viaJson
  body := call.body.map Record.viaJson

/-- What the route answers with when it does not forward the call; a payload of
the wrong shape is reported with its field. -/
inductive ProxyError : Type
  | invalidBody (field : String)
  | app (error : AppError)
deriving DecidableEq, Repr

/-- `z.union([z.string(), z.number(), z.boolean()])`. -/
def isQueryScalar : Value → Bool
  | .str _ | .num (.finite _) | .bool _ => true
  | _ => false

/-- `bodySchema.parse`. -/
def parseBody (payload : ProxyPayload) : Except ProxyError Unit :=
  if payload.method = [] then .error (.invalidBody "method")
  else if payload.path = [] then .error (.invalidBody "path")
  else if (payload.query.getD .empty).entries.all fun entry => isQueryScalar entry.2 then .ok ()
  else .error (.invalidBody "query")

/-- The query as strings. -/
def ProxyPayload.textQuery (payload : ProxyPayload) : Record Text :=
  (payload.query.getD .empty).map Value.toText

/-- What the share check sees besides method and path. -/
def ProxyPayload.extra (payload : ProxyPayload) : FederationExtra where
  query := some payload.textQuery
  body := payload.body

/-! ## The route -/

def proxyPveRequest (base : BasePath) (method path : Text) (query : Option (Record Text))
    (body : Option (Record Value)) : Except AppError ProxmoxRequest :=
  if !startsWith path "/" || includes path ".." then .error (validationError "Invalid Proxmox path")
  else
    let verb := toUpperCase method
    let search := query.map (·.map Value.str)
    if verb = "GET" then .ok (request base (.get path search))
    else if verb = "POST" then .ok (request base (.post path body search))
    else if verb = "PUT" then .ok (request base (.put path body search))
    else if verb = "DELETE" then .ok (request base (.del path search))
    else .error (validationError (String.ofList ("Unsupported method " ++ method)))

/-- `POST` of the route: the request that goes out for a payload, given what the
share lookup found and the base of the host. -/
def federationPost (share : Option HostShare) (base : BasePath) (payload : ProxyPayload) :
    Except ProxyError ProxmoxRequest :=
  match parseBody payload with
  | .error e => .error e
  | .ok () =>
      match assertSharedHost share payload.method payload.path (some payload.extra) with
      | .error e => .error (.app e)
      | .ok () =>
          match proxyPveRequest base payload.method payload.path (some payload.textQuery)
              payload.body with
          | .error e => .error (.app e)
          | .ok sent => .ok sent

/-- A call made by a client in federation mode, up to the request Proxmox gets. -/
def federatedRequest (share : Option HostShare) (base : BasePath) (call : HttpCall) :
    Except ProxyError ProxmoxRequest :=
  federationPost share base (federationRequest call)

/-! ## What JSON keeps -/

/-- A query value that arrives as it was: text, a finite number, a boolean, or
`undefined`, which is left out on either side. -/
def QueryCarried (v : Value) : Prop := v = .undefined ∨ isQueryScalar v = true

/-- The permission of a call. -/
def callPermission (call : HttpCall) : FederationNeed :=
  federationPermission call.method call.path
    (some { query := some ((call.query.getD .empty).viaJson.map Value.toText), body := call.body })

/-- The share lets the call through. -/
def HostShare.Grants (share : HostShare) (call : HttpCall) : Prop :=
  share.hostOrigin = .localHost ∧ callPermission call ≠ .deny ∧
    shareHasPermission share.level share.permissions (callPermission call).list = true

theorem QueryCarried.viaJson {v : Value} (carried : QueryCarried v) :
    v = .undefined ∧ v.viaJson = none ∨
      v.viaJson = some v ∧ isQueryScalar v = true ∧ v.isNullish = false := by
  rcases carried with rfl | scalar
  · exact Or.inl ⟨rfl, rfl⟩
  · refine Or.inr ⟨?_, scalar, ?_⟩
    · cases v with
      | num n => cases n <;> first | rfl | cases scalar
      | _ => first | rfl | cases scalar
    · cases v <;> first | rfl | cases scalar

/-- The schema accepts what is left of a carried query. -/
theorem all_isQueryScalar {entries : List (Text × Value)}
    (carried : ∀ entry ∈ entries, QueryCarried entry.2) :
    ((jsonEntries entries).all fun entry => isQueryScalar entry.2) = true := by
  induction entries with
  | nil => rfl
  | cons entry rest ih =>
      have tail := ih fun e member => carried e (List.mem_cons_of_mem entry member)
      rcases (carried entry List.mem_cons_self).viaJson with ⟨_, image⟩ | ⟨image, scalar, _⟩
      · rw [jsonEntries, image]
        exact tail
      · rw [jsonEntries, image, List.all_cons, scalar]
        exact tail

theorem toSearch_viaJson {query : Record Value}
    (carried : ∀ entry ∈ query.entries, QueryCarried entry.2) :
    toSearch (some ((query.viaJson.map Value.toText).map Value.str)) = toSearch (some query) := by
  have params : ∀ (entries : List (Text × Value)) (built : Params),
      (∀ entry ∈ entries, QueryCarried entry.2) →
      ((((jsonEntries entries).map fun entry => (entry.1, entry.2.toText)).map
        fun entry => (entry.1, Value.str entry.2)).foldl
        (fun params entry =>
          if entry.2.isNullish then params else Params.set params entry.1 entry.2.toText) built) =
      entries.foldl (fun params entry =>
          if entry.2.isNullish then params else Params.set params entry.1 entry.2.toText) built := by
    intro entries
    induction entries with
    | nil => intro built _; rfl
    | cons entry rest ih =>
        intro built all
        have tail := fun built => ih built fun e member => all e (List.mem_cons_of_mem entry member)
        rcases (all entry List.mem_cons_self).viaJson with ⟨absent, image⟩ | ⟨image, _, present⟩
        · rw [jsonEntries, image, List.foldl_cons, absent]
          exact tail built
        · rw [jsonEntries, image, List.foldl_cons, present]
          exact tail _
  have same := params query.entries [] carried
  simp only [toSearch, Record.map, Record.viaJson, same]

/-- The items of an array value, added one by one. -/
theorem foldl_itemsViaJson {items : List Value} (finite : Value.ItemsFinite items) (key : Text)
    (params : Params) :
    (Value.itemsViaJson items).foldl
        (fun params item =>
          if item.isNullish then params else Params.append params key item.toText) params =
      items.foldl
        (fun params item =>
          if item.isNullish then params else Params.append params key item.toText) params := by
  induction items generalizing params with
  | nil => rfl
  | cons v vs ih =>
      rw [Value.ItemsFinite] at finite
      obtain ⟨nullish, text⟩ := (Value.viaJson_toText v finite.1).item
      rw [Value.itemsViaJson, List.foldl_cons, List.foldl_cons, nullish, ih finite.2]
      cases absent : v.isNullish with
      | true => rfl
      | false => rw [text absent]

/-- A property adds the same to the form after JSON; `undefined` adds nothing. -/
theorem addFormEntry_viaJson {v : Value} (finite : v.Finite) (params : Params) (key : Text) :
    v.viaJson = none ∧ addFormEntry params key v = params ∨
      ∃ w, v.viaJson = some w ∧ addFormEntry params key w = addFormEntry params key v := by
  cases v with
  | undefined => exact Or.inl ⟨rfl, rfl⟩
  | num n =>
      cases n with
      | finite numeral => exact Or.inr ⟨_, rfl, rfl⟩
      | nan => exact finite.elim
      | infinity negative => exact finite.elim
  | arr items =>
      rw [Value.Finite] at finite
      exact Or.inr ⟨_, rfl, foldl_itemsViaJson finite key params⟩
  | _ => exact Or.inr ⟨_, rfl, rfl⟩

theorem formParams_viaJson {body : Record Value} (finite : body.Finite) :
    formParams body.viaJson = formParams body := by
  have fold : ∀ (entries : List (Text × Value)) (params : Params),
      Value.ItemsFinite (entries.map Prod.snd) →
      (jsonEntries entries).foldl (fun params entry => addFormEntry params entry.1 entry.2) params =
        entries.foldl (fun params entry => addFormEntry params entry.1 entry.2) params := by
    intro entries
    induction entries with
    | nil => intro params _; rfl
    | cons entry rest ih =>
        intro params all
        rw [List.map_cons, Value.ItemsFinite] at all
        rcases addFormEntry_viaJson all.1 params entry.1 with ⟨image, same⟩ | ⟨w, image, same⟩
        · rw [jsonEntries, image, List.foldl_cons, same]
          exact ih params all.2
        · rw [jsonEntries, image, List.foldl_cons, List.foldl_cons, same]
          exact ih _ all.2
  exact fold body.entries [] finite

/-! ## The permission of a call -/

/-- The command in a payload is the command in the call. -/
theorem extraCmd_viaJson {query : Option (Record Text)} {body : Option (Record Value)}
    (finite : ∀ record ∈ body, record.Finite) :
    extraCmd (some { query, body := body.map Record.viaJson }) = extraCmd (some { query, body }) := by
  cases body with
  | none => rfl
  | some record =>
      have fromBody := (Record.get_viaJson (finite record rfl) "cmd").orElse
        (Record.get_viaJson (finite record rfl) "command")
      have chosen := fun fromQuery => (fromBody.orElse (.refl fromQuery)).orElse (.refl (.str ""))
      have present : ∀ v : Value, (v.orElse (.str "")).isNullish = false := by
        intro v
        cases v <;> rfl
      exact congrArg toLowerCase ((chosen _).2 (present _))

/-- Only the command is read from what comes besides method and path. -/
theorem federationPermission_congr {extra extra' : Option FederationExtra}
    (same : extraCmd extra = extraCmd extra') (method path : Text) :
    federationPermission method path extra = federationPermission method path extra' := by
  simp only [federationPermission, federationRule, same]

theorem federationPermission_payload {call : HttpCall} (finite : ∀ body ∈ call.body, body.Finite) :
    federationPermission call.method call.path (some (federationRequest call).extra) =
      callPermission call :=
  federationPermission_congr (extraCmd_viaJson finite) call.method call.path

theorem HostShare.Grants.admits {share : HostShare} {call : HttpCall} (grants : share.Grants call)
    (finite : ∀ body ∈ call.body, body.Finite) :
    assertSharedHost (some share) call.method call.path (some (federationRequest call).extra) =
      .ok () := by
  obtain ⟨origin, some, held⟩ := grants
  simp [assertSharedHost, federationPermission_payload finite, origin, some, held]

/-! ## The two ways to Proxmox -/

/-- The schema lets a carried call pass. -/
theorem parseBody_federationRequest {call : HttpCall} (path : call.path ≠ [])
    (carried : ∀ query ∈ call.query, ∀ entry ∈ query.entries, QueryCarried entry.2) :
    parseBody (federationRequest call) = .ok () := by
  have method : call.method ≠ [] := by cases call <;> exact List.cons_ne_nil _ _
  have query : ((call.query.getD .empty).viaJson.entries.all fun entry => isQueryScalar entry.2) =
      true := by
    cases given : call.query with
    | none => rfl
    | some query => exact all_isQueryScalar (carried query given)
  simp [parseBody, federationRequest, method, path, query]

/-- The query string that leaves the second client. -/
theorem toSearch_textQuery {call : HttpCall}
    (carried : ∀ query ∈ call.query, ∀ entry ∈ query.entries, QueryCarried entry.2) :
    toSearch (some ((federationRequest call).textQuery.map Value.str)) = toSearch call.query := by
  cases given : call.query with
  | none =>
      simp only [ProxyPayload.textQuery, federationRequest, given]
      rfl
  | some query =>
      simp only [ProxyPayload.textQuery, federationRequest, given]
      exact toSearch_viaJson (carried query given)

theorem toFormBody_viaJson {body : Option (Record Value)} (finite : ∀ record ∈ body, record.Finite) :
    toFormBody (body.map Record.viaJson) = toFormBody body := by
  cases body with
  | none => rfl
  | some record =>
      exact congrArg (some ∘ Params.serialize) (formParams_viaJson (finite record rfl))

/-- A request depends on the query and the body through their encodings only. -/
theorem request_congr {base : BasePath} {call call' : HttpCall} (method : call.method = call'.method)
    (path : call.path = call'.path) (search : toSearch call.query = toSearch call'.query)
    (form : toFormBody call.body = toFormBody call'.body) : request base call = request base call' := by
  simp only [request, method, path, search, form]

/-- What the second client sends for the payload of a call. -/
theorem proxyPveRequest_federationRequest {call : HttpCall} (base : BasePath)
    (carried : ∀ query ∈ call.query, ∀ entry ∈ query.entries, QueryCarried entry.2)
    (finite : ∀ body ∈ call.body, body.Finite) (start : startsWith call.path "/" = true)
    (noDots : includes call.path ".." = false) :
    proxyPveRequest base call.method call.path (some (federationRequest call).textQuery)
      (federationRequest call).body = .ok (request base call) := by
  have search := toSearch_textQuery carried
  have form := toFormBody_viaJson finite
  rw [proxyPveRequest, start, noDots]
  cases call with
  | get path query => exact congrArg Except.ok (request_congr rfl rfl search rfl)
  | post path body query => exact congrArg Except.ok (request_congr rfl rfl search form)
  | put path body query => exact congrArg Except.ok (request_congr rfl rfl search form)
  | del path query => exact congrArg Except.ok (request_congr rfl rfl search rfl)

/-- **A shared host behaves like a direct one**: the owner sends the request a
direct client would have sent, and refuses a path with `..`. -/
theorem federatedRequest_eq {share : HostShare} {call : HttpCall} (client : ClientCall)
    (base : BasePath) (built : call.path = renderPath client.call.parts)
    (grants : share.Grants call)
    (carried : ∀ query ∈ call.query, ∀ entry ∈ query.entries, QueryCarried entry.2)
    (finite : ∀ body ∈ call.body, body.Finite) :
    federatedRequest (some share) base call =
      if includes call.path ".." then .error (.app (validationError "Invalid Proxmox path"))
      else .ok (request base call) := by
  have start : startsWith call.path "/" = true := by
    rw [built]
    exact startsWith_renderPath client.parts_ne_nil
  have some : call.path ≠ [] := by
    intro none
    rw [none] at start
    cases start
  have parsed := parseBody_federationRequest some carried
  have admitted : assertSharedHost (Option.some share) (federationRequest call).method
      (federationRequest call).path (Option.some (federationRequest call).extra) = .ok () :=
    grants.admits finite
  rw [federatedRequest, federationPost, parsed]
  simp only [admitted]
  split_ifs with dots
  · have refused : proxyPveRequest base call.method call.path
        (Option.some (federationRequest call).textQuery) (federationRequest call).body =
          .error (validationError "Invalid Proxmox path") := by
      rw [proxyPveRequest, start, dots]
      rfl
    simp only [federationRequest] at refused ⊢
    rw [refused]
  · have sent := proxyPveRequest_federationRequest base carried finite start
      (Bool.eq_false_iff.mpr dots)
    simp only [federationRequest] at sent ⊢
    rw [sent]

/-- A host shared for control. -/
def controlShare : HostShare := ⟨.control, [], .localHost⟩

theorem federatedRequest_eq_status :
    federatedRequest (some controlShare) rootBase (.get "/nodes/pve/status" none) =
      if includes ("/nodes/pve/status" : Text) ".." then
        .error (.app (validationError "Invalid Proxmox path"))
      else .ok (request rootBase (.get "/nodes/pve/status" none)) :=
  federatedRequest_eq (.nodes (.status "pve")) rootBase (by decide)
    ⟨rfl, by decide, by decide⟩ (by simp [HttpCall.query]) (by simp [HttpCall.body])

/-- Calls that a shared host answers otherwise. -/
def dottedCall : HttpCall := (GuestApi.call .vm (.deleteSnapshot "pve" 100 "a..b")).http
def nullQueryCall : HttpCall := .get "/nodes/pve/tasks" (literal [("source", .null)])
def nanBodyCall : HttpCall := .put "/nodes/pve/qemu/100/config" (literal [("cores", .num .nan)]) none

/-- A path with two dots in a row is refused on a shared host, a query with
`null` too, and a number that is none is missing from the form. -/
theorem shared_host_differs :
    (¬ ∀ (share : HostShare) (base : BasePath) (client : ClientCall) (call : HttpCall),
      call.path = renderPath client.call.parts → share.Grants call →
      federatedRequest (some share) base call = .ok (request base call)) ∧
    (controlShare.Grants nullQueryCall ∧
      federatedRequest (some controlShare) rootBase nullQueryCall = .error (.invalidBody "query")) ∧
    (controlShare.Grants nanBodyCall ∧
      federatedRequest (some controlShare) rootBase nanBodyCall ≠
        .ok (request rootBase nanBodyCall)) := by
  refine ⟨fun claim => ?_, ⟨⟨rfl, by decide, by decide⟩, rfl⟩, ⟨rfl, by decide, by decide⟩, ?_⟩
  · have same := claim controlShare rootBase (.guest .vm (.deleteSnapshot "pve" 100 "a..b"))
      dottedCall rfl ⟨rfl, by decide, by decide⟩
    have refused : federatedRequest (some controlShare) rootBase dottedCall =
        .error (.app (validationError "Invalid Proxmox path")) := rfl
    rw [refused] at same
    cases same
  · have sent : federatedRequest (some controlShare) rootBase nanBodyCall =
        .ok ⟨"PUT", "/api2/json/nodes/pve/qemu/100/config", some []⟩ := rfl
    have direct : request rootBase nanBodyCall =
        ⟨"PUT", "/api2/json/nodes/pve/qemu/100/config", some "cores=NaN"⟩ := rfl
    rw [sent, direct]
    decide

end Proxora
