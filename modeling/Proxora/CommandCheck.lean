import Proxora.Ecma.SearchParams
import Proxora.Ecma.Url
import Proxora.FederationProxy

/-!
# The command that is checked and the command that is sent

For a node's `status` and `termproxy` endpoints the needed permission depends on
a command, which `extraCmd` takes from one place of the payload; the proxy sends
on every place.  `commandChecked_iff` says for which payloads no share lets a
command through that it could not send alone.
-/

namespace Proxora

open Ecma

/-! ## The commands of a request -/

/-- The parameters in the URL of a request, as a server reads them. -/
def ProxmoxRequest.query (sent : ProxmoxRequest) : Params :=
  Params.parse (queryPart (urlInput sent.target))

/-- The parameters in the form body of a request. -/
def ProxmoxRequest.form (sent : ProxmoxRequest) : Params := Params.parse (sent.body.getD [])

/-- The values sent under the names `cmd` and `command`. -/
def ProxmoxRequest.commands (sent : ProxmoxRequest) : List Text :=
  let parameters := sent.query ++ sent.form
  parameters.getAll "cmd" ++ parameters.getAll "command"

/-- A call with one command, under the name Proxmox reads. -/
def commandOnly (command : Text) : FederationExtra where
  query := some .empty
  body := some (Record.ofList [("cmd", .str command)])

/-- What the proxy sends for a `POST`. -/
def proxiedPost (base : BasePath) (payload : ProxyPayload) : ProxmoxRequest :=
  request base (.post payload.path payload.body (some (payload.textQuery.map Value.str)))

/-- The payload passes the route's schema and the path check of the proxy. -/
def ProxyPayload.Proxied (payload : ProxyPayload) : Prop :=
  parseBody payload = .ok () ∧ startsWith payload.path "/" = true ∧
    includes payload.path ".." = false

/-- Every command that goes out is one the share would let through on its own. -/
def CommandChecked (base : BasePath) (payload : ProxyPayload) : Prop :=
  ∀ (share : HostShare) (sent : ProxmoxRequest),
    federationPost (some share) base payload = .ok sent →
    ∀ command ∈ sent.commands,
      assertSharedHost (some share) payload.method payload.path (some (commandOnly command)) = .ok ()

/-! ## The two endpoints -/

/-- A node's `status` or `termproxy` endpoint. -/
def isCommandEndpoint (lower : Text) : Bool :=
  (nodePath ["status"]).test lower || (nodePath ["termproxy"]).test lower

/-- The rules that come before the command is looked at, or leave it out. -/
def ignoresCommand (lower : Text) : Bool :=
  isMassPower lower || includes lower "/apt/" || isUnderGuests lower

/-- The permission a command needs at the endpoint. -/
def commandNeed (lower command : Text) : FederationNeed :=
  if (nodePath ["status"]).test lower then
    if command = "reboot" then .one .hostsReboot
    else if command = "shutdown" then .one .hostsShutdown
    else .deny
  else if command = "upgrade" then .one .updatesUpgrade
  else .one .hostsConsole

/-- The other commands are of the kind of the checked one, where the endpoint
knows the checked one at all. -/
def CommandsAgree (lower checked : Text) (commands : List Text) : Prop :=
  if (nodePath ["status"]).test lower then
    checked = "reboot" ∨ checked = "shutdown" → ∀ command ∈ commands, toLowerCase command = checked
  else ∀ command ∈ commands, toLowerCase command = "upgrade" ↔ checked = "upgrade"

theorem extraCmd_commandOnly (command : Text) :
    extraCmd (some (commandOnly command)) = toLowerCase command := rfl

theorem federationRule_ignores {m lower : Text} (ignores : ignoresCommand lower = true)
    (extra extra' : Option FederationExtra) :
    federationRule m lower extra = federationRule m lower extra' := by
  simp only [ignoresCommand, Bool.or_eq_true] at ignores
  unfold federationRule
  rcases ignores with (mass | apt) | under
  · rw [if_pos mass, if_pos mass]
  · rw [if_pos apt, if_pos apt]
  · simp only [under, Bool.not_true, Bool.and_false, Bool.false_eq_true, if_false]

/-- A path that ends in `v` after a node. -/
theorem exists_last_of_nodePath (front : List Text) {v s : Text} (lower : Lower s)
    (words : ∀ u ∈ front ++ [v], IsPatternWord u) (ends : (nodePath (front ++ [v])).test s = true) :
    ∃ before, split '/' s = before ++ [v] := by
  have plain := nodePath_plain fun u member => (words u member).2.1
  rw [nodePath, test_endsIn plain, List.map_append, ← List.cons_append, ← List.cons_append] at ends
  obtain ⟨before, last, cut, accepted⟩ := accepts_of_endsInSegments ends
  have inside : last ∈ split '/' s := by
    rw [cut]
    exact List.mem_append_right before List.mem_cons_self
  have lowerLast := lower.of_mem_split inside
  rw [Piece.accepts_word lowerLast (words v (by simp)).1, decide_eq_true_eq] at accepted
  exact ⟨before, accepted ▸ cut⟩

/-- Two endings of a path that differ in their last word. -/
theorem test_nodePath_ne (front : List Text) {v w s : Text} (lower : Lower s)
    (word : IsPatternWord v) (words : ∀ u ∈ front ++ [w], IsPatternWord u) (other : v ≠ w)
    (ends : (nodePath [v]).test s = true) : (nodePath (front ++ [w])).test s = false := by
  rw [Bool.eq_false_iff]
  intro ends'
  obtain ⟨before, cut⟩ := exists_last_of_nodePath [] lower (by simpa using word) ends
  obtain ⟨before', cut'⟩ := exists_last_of_nodePath front lower words ends'
  rw [cut] at cut'
  exact other (List.singleton_inj.mp (List.append_inj' cut' rfl).2)

theorem federationRule_command {lower : Text} (lowers : Lower lower)
    (ignores : ignoresCommand lower = false) (endpoint : isCommandEndpoint lower = true)
    (extra : Option FederationExtra) :
    federationRule "POST" lower extra = commandNeed lower (extraCmd extra) := by
  simp only [ignoresCommand, Bool.or_eq_false_iff] at ignores
  obtain ⟨⟨mass, apt⟩, under⟩ := ignores
  rw [federationRule, commandNeed, mass, apt, under]
  rcases Bool.eq_false_or_eq_true ((nodePath ["status"]).test lower) with status | status
  · simp only [status]
    rfl
  · rw [isCommandEndpoint, status, Bool.false_or] at endpoint
    have reboot := test_nodePath_ne ["status"] (w := "reboot") lowers (by decide) (by decide)
      (by decide) endpoint
    have shutdown := test_nodePath_ne ["status"] (w := "shutdown") lowers (by decide) (by decide)
      (by decide) endpoint
    rw [List.singleton_append] at reboot shutdown
    simp only [status, reboot, shutdown, endpoint]
    rfl

/-! ## Shares of one permission -/

/-- The permissions a command can need. -/
def commandPermissions : List Permission :=
  [.hostsReboot, .hostsShutdown, .updatesUpgrade, .hostsConsole]

/-- A share that grants nothing else. -/
def shareOf (p : Permission) : HostShare := ⟨.view, [p.id], .localHost⟩

theorem shareHasPermission_shareOf {p q : Permission} (known : p ∈ commandPermissions)
    (known' : q ∈ commandPermissions) :
    shareHasPermission (shareOf p).level (shareOf p).permissions [q] = decide (p = q) := by
  have table : ∀ p ∈ commandPermissions, ∀ q ∈ commandPermissions,
      shareHasPermission (shareOf p).level (shareOf p).permissions [q] = decide (p = q) := by decide
  exact table p known q known'

theorem commandNeed_cases (lower command : Text) :
    commandNeed lower command = .deny ∨
      ∃ p ∈ commandPermissions, commandNeed lower command = .one p := by
  unfold commandNeed
  split_ifs
  · exact Or.inr ⟨_, by decide, rfl⟩
  · exact Or.inr ⟨_, by decide, rfl⟩
  · exact Or.inl rfl
  · exact Or.inr ⟨_, by decide, rfl⟩
  · exact Or.inr ⟨_, by decide, rfl⟩

/-- The share lets a need through. -/
def HostShare.Admits (share : HostShare) (need : FederationNeed) : Prop :=
  need ≠ .deny ∧ shareHasPermission share.level share.permissions need.list = true

theorem assertSharedHost_iff {share : HostShare} {method path : Text}
    {extra : Option FederationExtra} :
    assertSharedHost (some share) method path extra = .ok () ↔
      share.hostOrigin = .localHost ∧ share.Admits (federationPermission method path extra) := by
  simp only [assertSharedHost, HostShare.Admits]
  by_cases origin : share.hostOrigin = .localHost
  · rw [if_neg (not_not_intro origin)]
    split_ifs with refused
    · refine iff_of_false (fun refused => by cases refused) ?_
      rintro ⟨_, some, held⟩
      rcases refused with deny | missing
      · exact some deny
      · rw [held] at missing
        cases missing
    · rw [not_or, Bool.not_eq_true', Bool.not_eq_false] at refused
      exact iff_of_true rfl ⟨origin, refused⟩
  · rw [if_pos origin]
    exact iff_of_false (fun refused => by cases refused) fun admitted => origin admitted.1

/-- Two commands stand in for each other, whatever the share, when they need the
same. -/
theorem needs_agree_iff (lower checked command : Text) :
    (∀ share : HostShare, share.hostOrigin = .localHost →
        share.Admits (commandNeed lower checked) → share.Admits (commandNeed lower command)) ↔
      commandNeed lower checked = .deny ∨ commandNeed lower command = commandNeed lower checked := by
  constructor
  · intro every
    rcases commandNeed_cases lower checked with deny | ⟨p, known, need⟩
    · exact Or.inl deny
    · have own : (shareOf p).Admits (commandNeed lower checked) := by
        rw [need]
        exact ⟨nofun, by rw [FederationNeed.list, shareHasPermission_shareOf known known]; simp⟩
      obtain ⟨some, held⟩ := every (shareOf p) rfl own
      rcases commandNeed_cases lower command with deny | ⟨q, known', need'⟩
      · exact absurd deny some
      · rw [need', FederationNeed.list, shareHasPermission_shareOf known known',
          decide_eq_true_eq] at held
        rw [need, need', held]
        exact Or.inr rfl
  · rintro (deny | same) share _ admits
    · exact absurd deny admits.1
    · rwa [same]

/-- The condition, command by command. -/
theorem commandsAgree_iff (lower checked : Text) (commands : List Text) :
    CommandsAgree lower checked commands ↔
      ∀ command ∈ commands, commandNeed lower checked = .deny ∨
        commandNeed lower (toLowerCase command) = commandNeed lower checked := by
  unfold CommandsAgree commandNeed
  rcases Bool.eq_false_or_eq_true ((nodePath ["status"]).test lower) with status | status
  · have words : ("shutdown" : Text) ≠ "reboot" := by decide
    simp only [status, if_true]
    by_cases reboot : checked = "reboot"
    · simp only [reboot, true_or, if_true, forall_const, reduceCtorEq, false_or]
      refine forall₂_congr fun command _ => ?_
      split_ifs <;> simp_all
    by_cases shutdown : checked = "shutdown"
    · simp only [shutdown, words, or_true, if_true, if_false, forall_const, reduceCtorEq, false_or]
      refine forall₂_congr fun command _ => ?_
      split_ifs <;> simp_all
    · simp only [reboot, shutdown, or_self, if_false, true_or, implies_true, false_implies]
  · simp only [status, Bool.false_eq_true, if_false]
    refine forall₂_congr fun command _ => ?_
    split_ifs <;> simp_all

/-! ## The route -/

/-- A `POST` goes out when the share admits its permission. -/
theorem federationPost_iff {payload : ProxyPayload} (base : BasePath)
    (post : toUpperCase payload.method = "POST") (proxied : payload.Proxied) (share : HostShare)
    (sent : ProxmoxRequest) :
    federationPost (some share) base payload = .ok sent ↔
      assertSharedHost (some share) payload.method payload.path (some payload.extra) = .ok () ∧
        sent = proxiedPost base payload := by
  obtain ⟨parsed, start, noDots⟩ := proxied
  have proxy : proxyPveRequest base payload.method payload.path (some payload.textQuery)
      payload.body = .ok (proxiedPost base payload) := by
    rw [proxyPveRequest, start, noDots, post]
    rfl
  rw [federationPost, parsed]
  simp only [proxy]
  cases assertSharedHost (some share) payload.method payload.path (some payload.extra) with
  | error e => exact iff_of_false (fun same => by cases same) fun both => by cases both.1
  | ok _ => exact ⟨fun same => ⟨rfl, (Except.ok.inj same).symm⟩, fun both => both.2 ▸ rfl⟩

/-- **The command that is checked is the command that is sent.** -/
theorem commandChecked_iff {payload : ProxyPayload} (base : BasePath)
    (post : toUpperCase payload.method = "POST")
    (endpoint : isCommandEndpoint (lowerPath payload.path) = true) (proxied : payload.Proxied) :
    CommandChecked base payload ↔
      ignoresCommand (lowerPath payload.path) = true ∨
        CommandsAgree (lowerPath payload.path) (extraCmd (some payload.extra))
          (proxiedPost base payload).commands := by
  simp only [CommandChecked, federationPost_iff base post proxied, assertSharedHost_iff]
  cases ignores : ignoresCommand (lowerPath payload.path) with
  | true =>
      refine iff_of_true ?_ (Or.inl rfl)
      rintro share sent ⟨admitted, _⟩ command _
      unfold federationPermission at admitted ⊢
      rwa [federationRule_ignores ignores _ (some payload.extra)]
  | false =>
      have need : ∀ extra, federationPermission payload.method payload.path extra =
          commandNeed (lowerPath payload.path) (extraCmd extra) := by
        intro extra
        rw [federationPermission, post]
        exact federationRule_command (lower_toLowerCase _) ignores endpoint extra
      simp only [need, extraCmd_commandOnly, Bool.false_eq_true, false_or, commandsAgree_iff,
        ← needs_agree_iff]
      constructor
      · intro every command inside share origin admits
        exact (every share _ ⟨⟨origin, admits⟩, rfl⟩ command inside).2
      · rintro every share sent ⟨⟨origin, admits⟩, rfl⟩ command inside
        exact ⟨origin, every command inside share origin admits⟩

/-! ## Two commands in one body -/

/-- A body with `cmd` and `command`. -/
def ambiguousPayload : ProxyPayload where
  method := "POST"
  path := "/nodes/pve/status"
  query := none
  body := literal [("cmd", .str "reboot"), ("command", .str "shutdown")]

theorem commandChecked_iff_ambiguous :
    CommandChecked rootBase ambiguousPayload ↔
      ignoresCommand (lowerPath ambiguousPayload.path) = true ∨
        CommandsAgree (lowerPath ambiguousPayload.path) (extraCmd (some ambiguousPayload.extra))
          (proxiedPost rootBase ambiguousPayload).commands :=
  commandChecked_iff rootBase (by decide) (by decide) ⟨by decide, by decide, by decide⟩

/-- A share for reboots sends the shutdown along. -/
theorem shutdown_passes_as_reboot :
    ¬ ∀ (base : BasePath) (payload : ProxyPayload), toUpperCase payload.method = "POST" →
      isCommandEndpoint (lowerPath payload.path) = true → CommandChecked base payload := by
  intro claim
  have sent : federationPost (some (shareOf .hostsReboot)) rootBase ambiguousPayload =
      .ok (proxiedPost rootBase ambiguousPayload) := by rfl
  have inside : ("shutdown" : Text) ∈ (proxiedPost rootBase ambiguousPayload).commands := by decide
  have admitted := claim rootBase ambiguousPayload (by decide) (by decide) _ _ sent _ inside
  exact absurd admitted (by decide)

end Proxora
