import Proxora.CommandCheck
import Proxora.GuestActions

/-!
# Consoles and agents of shared guests

The two kinds of guest endpoint that reach into a guest: its consoles and the
files and commands of its agent.  `federationPermission` classifies a `GET` or
`HEAD` under a guest as a look at it before it comes to the endpoint.

* `console_guarded_iff`: when a console needs the console permission.
* `guestFiles_agree_iff`: when the proxy lets nobody through whom
  `requireSharedGuestFiles` refuses.
-/

namespace Proxora

open Ecma

/-! ## Paths of a guest -/

/-- A text that is one segment of a path without query. -/
structure PathSegment where
  text : Text
  noSlash : '/' ∉ text
  noMark : '?' ∉ text

/-- `/nodes/{node}/{qemu|lxc}/{vmid}/…`, as a peer may write it. -/
def guestPath (kind : GuestKind) (node : PathSegment) (vmid : Nat) (tail : List Text) : Text :=
  slashText ("nodes" :: node.text :: kind.pick "qemu" "lxc" :: (toString vmid : String) :: tail)

/-- A path with its query, where there is one. -/
def withQuery (path : Text) (query : Option Text) : Text :=
  match query with
  | none => path
  | some query => path ++ '?' :: query

/-- The endpoints that open a console of a guest. -/
inductive ConsoleEndpoint : Type
  | termproxy | vncproxy | vncwebsocket
deriving DecidableEq, Repr

def ConsoleEndpoint.word : ConsoleEndpoint → Text
  | .termproxy => "termproxy"
  | .vncproxy => "vncproxy"
  | .vncwebsocket => "vncwebsocket"

/-- The agent endpoints for files and commands. -/
inductive AgentEndpoint : Type
  | fileRead | fileWrite | exec | execStatus
deriving DecidableEq, Repr

def AgentEndpoint.word : AgentEndpoint → Text
  | .fileRead => "file-read"
  | .fileWrite => "file-write"
  | .exec => "exec"
  | .execStatus => "exec-status"

/-! ## What the check reads -/

/-- Words in lower case that hold neither `/` nor `?`. -/
def PlainWords (words : List Text) : Prop :=
  ∀ w ∈ words, (toLowerCase w = w ∧ '/' ∉ w) ∧ '?' ∉ w

instance (words : List Text) : Decidable (PlainWords words) :=
  List.decidableBAll (fun w : Text => (toLowerCase w = w ∧ '/' ∉ w) ∧ '?' ∉ w) words

theorem toLowerCase_toString (n : Nat) :
    toLowerCase (toString n : String) = (PathPart.num n).lowerText :=
  toLowerCase_of_ascii fun c member =>
    ascii_of_uriEncoded ((PathPart.num n).uriEncoded_text c member)

theorem lowerPath_withQuery {path : Text} (noMark : '?' ∉ path) (query : Option Text) :
    lowerPath (withQuery path query) = toLowerCase path := by
  cases query with
  | none => rw [withQuery, lowerPath, split_of_notMem noMark, List.headD_cons]
  | some query =>
      rw [withQuery, lowerPath, split_append_cons, split_of_notMem noMark, List.singleton_append,
        List.headD_cons]

theorem mark_notMem_slashText {words : List Text} (plain : ∀ w ∈ words, '?' ∉ w) :
    '?' ∉ slashText words := by
  intro mark
  obtain ⟨w, member, here⟩ := List.mem_flatMap.mp mark
  rcases List.mem_cons.mp here with slash | inside
  · exact absurd slash (by decide)
  · exact plain w member inside

theorem notMem_toString {n : Nat} {c : Char} (other : c.isDigit = false) :
    c ∉ (toString n : String).toList := by
  intro member
  rw [digits_toString c member] at other
  cases other

/-- Lower-casing makes no slash. -/
theorem slash_notMem_toLowerCase {s : Text} (free : '/' ∉ s) : '/' ∉ toLowerCase s := by
  intro slash
  obtain ⟨c, member, here⟩ := List.mem_flatMap.mp slash
  unfold lowerChar at here
  split at here
  · exact absurd here (by decide)
  · split at here
    · exact absurd here (by decide)
    · rw [List.mem_singleton] at here
      by_cases upper : c.isUpper = true
      · have letter := Char.isLower_toLower_eq_isAlpha c
        rw [← here, Char.isAlpha, upper, Bool.true_or] at letter
        exact absurd letter (by decide)
      · rw [Char.toLower_eq_of_not_isUpper upper] at here
        exact free (here ▸ member)

section

variable {kind : GuestKind} {node : PathSegment} {vmid : Nat} {tail : List Text}

theorem lowerPath_guestPath (plain : PlainWords tail) (query : Option Text) :
    lowerPath (withQuery (guestPath kind node vmid tail) query) =
      slashText (guestWords kind (toLowerCase node.text) (PathPart.num vmid).lowerText tail) := by
  have noMark : '?' ∉ guestPath kind node vmid tail := by
    refine mark_notMem_slashText fun w member => ?_
    simp only [List.mem_cons] at member
    rcases member with rfl | rfl | rfl | rfl | inside
    · decide
    · exact node.noMark
    · cases kind <;> decide
    · exact notMem_toString (by decide)
    · exact (plain w inside).2
  have kept : tail.map toLowerCase = tail :=
    (List.map_congr_left fun w member => (plain w member).1.1).trans (List.map_id tail)
  have kinds : toLowerCase (kind.pick "qemu" "lxc" : Text) = (kind.pick "qemu" "lxc" : Text) := by
    cases kind <;> decide
  have nodes : toLowerCase ("nodes" : Text) = "nodes" := by decide
  rw [lowerPath_withQuery noMark, guestPath, toLowerCase_slashText, guestWords, List.map_cons,
    List.map_cons, List.map_cons, List.map_cons, kept, kinds, nodes, toLowerCase_toString]

theorem lower_guestWords (plain : PlainWords tail) : ∀ w ∈ guestWords kind
    (toLowerCase node.text) (PathPart.num vmid).lowerText tail, Lower w := by
  intro w member
  simp only [guestWords, List.mem_cons] at member
  rcases member with rfl | rfl | rfl | rfl | inside
  · decide
  · exact lower_toLowerCase node.text
  · cases kind <;> decide
  · exact (PathPart.num vmid).lower_lowerText
  · exact (plain w inside).1.1 ▸ lower_toLowerCase w

theorem free_guestWords (plain : PlainWords tail) : ∀ w ∈ guestWords kind
    (toLowerCase node.text) (PathPart.num vmid).lowerText tail, '/' ∉ w := by
  intro w member
  simp only [guestWords, List.mem_cons] at member
  rcases member with rfl | rfl | rfl | rfl | inside
  · decide
  · exact slash_notMem_toLowerCase node.noSlash
  · cases kind <;> decide
  · exact (PathPart.num vmid).slash_notMem_lowerText
  · exact (plain w inside).1.2

/-- The rules for the path of a guest, as a peer writes it. -/
theorem federationPermission_guestPath (plain : PlainWords tail)
    (method : Text) (query : Option Text) (extra : Option FederationExtra) :
    federationPermission method (withQuery (guestPath kind node vmid tail) query) extra =
      federationRule (toUpperCase method) (slashText (guestWords kind (toLowerCase node.text)
        (PathPart.num vmid).lowerText tail)) extra := by
  rw [federationPermission, lowerPath_guestPath plain]

/-- A path that does not end in `update` is not the one that checks for updates. -/
theorem test_aptUpdate_ne (front : List Text) {a b : Text} (free : ∀ w ∈ front ++ [a, b], '/' ∉ w)
    (lowers : ∀ w ∈ front ++ [a, b], Lower w) (other : b ≠ "update") :
    (endsIn [.word "apt", .word "update"]).test (slashText (front ++ [a, b])) = false := by
  have lowerA := lowers a (by simp)
  have lowerB := lowers b (by simp)
  have cut : [] :: (front ++ [a, b]) = ([] :: front) ++ [a, b] := rfl
  rw [test_endsIn_slashText free (by decide), cut, endsInSegments_append (List.cons_ne_nil _ _) rfl,
    acceptsAll, acceptsAll, acceptsAll, Piece.accepts_word lowerA (by decide),
    Piece.accepts_word lowerB (by decide), decide_eq_false other, Bool.false_and, Bool.and_false]

end

/-- The kind a guest path is checked as: a container on a node called `qemu` is
taken for a VM. -/
def checkedKind (kind : GuestKind) (node : PathSegment) : GuestKind :=
  if kind = .vm ∨ toLowerCase node.text = "qemu" then .vm else .lxc

/-! ## Consoles -/

/-- What a console endpoint needs. -/
theorem federationPermission_console (method : Text) (kind : GuestKind) (node : PathSegment)
    (vmid : Nat) (endpoint : ConsoleEndpoint) (query : Option Text)
    (extra : Option FederationExtra) :
    federationPermission method (withQuery (guestPath kind node vmid [endpoint.word]) query) extra =
      if toLowerCase node.text = "apt" then
        if isReadMethod (toUpperCase method) then .one .updatesView else .deny
      else if isReadMethod (toUpperCase method) then
        .one ((checkedKind kind node).pick .vmView .lxcView)
      else .one ((checkedKind kind node).pick .vmConsole .lxcConsole) := by
  have plain : PlainWords [endpoint.word] := by cases endpoint <;> decide
  have lowers : ∀ w ∈ guestWords kind (toLowerCase node.text) (PathPart.num vmid).lowerText
      [endpoint.word], Lower w := lower_guestWords plain
  have free : ∀ w ∈ guestWords kind (toLowerCase node.text) (PathPart.num vmid).lowerText
      [endpoint.word], '/' ∉ w := free_guestWords plain
  have action (checked : GuestKind) (m : Text) :
      guestActionPermission checked m (slashText (guestWords kind (toLowerCase node.text)
        (PathPart.num vmid).lowerText [endpoint.word])) = checked.pick .vmConsole .lxcConsole := by
    have kinds : (kind.pick "qemu" "lxc" : Text) ≠ "snapshot" := by cases kind <;> decide
    have cut : guestWords kind (toLowerCase node.text) (PathPart.num vmid).lowerText
        [endpoint.word] = [("nodes" : Text), toLowerCase node.text] ++
          [(kind.pick "qemu" "lxc" : Text), (PathPart.num vmid).lowerText, endpoint.word] := rfl
    rw [cut] at lowers free ⊢
    rw [guestActionPermission_slashText free lowers,
      GuestAction.endingPermission_vmid checked (GuestAction.number_ne (by decide)) kinds]
    cases endpoint <;> cases checked <;> rfl
  have noUpdate : (endsIn [.word "apt", .word "update"]).test (slashText (guestWords kind
      (toLowerCase node.text) (PathPart.num vmid).lowerText [endpoint.word])) = false :=
    test_aptUpdate_ne [("nodes" : Text), toLowerCase node.text, kind.pick "qemu" "lxc"] free lowers (by cases endpoint <;> decide)
  rw [federationPermission_guestPath plain,
    federationRule_guestWords (.one endpoint.word) lowers (fun _ => GuestAction.number_ne) free,
    noUpdate, Bool.and_false]
  simp only [List.dropLast_singleton, List.not_mem_nil, or_false, Bool.false_eq_true, if_false,
    action, checkedKind]

/-- Every share that is let through to the console has the console permission. -/
def ConsoleGuarded (method path : Text) (kind : GuestKind) (extra : Option FederationExtra) : Prop :=
  ∀ share : HostShare, assertSharedHost (some share) method path extra = .ok () →
    shareHasPermission share.level share.permissions [kind.pick .vmConsole .lxcConsole] = true

/-- **When a console is guarded.**  A `GET`, which is what the WebSocket bridge
asks for, goes with the permission to view guests. -/
theorem console_guarded_iff (method : Text) (kind : GuestKind) (node : PathSegment) (vmid : Nat)
    (endpoint : ConsoleEndpoint) (query : Option Text) (extra : Option FederationExtra) :
    ConsoleGuarded method (withQuery (guestPath kind node vmid [endpoint.word]) query) kind extra ↔
      isReadMethod (toUpperCase method) = false ∧
        ¬ (kind = .lxc ∧ toLowerCase node.text = "qemu") := by
  -- a share with no more than the permission asked for
  have alone {p : Permission} (asked : federationPermission method
        (withQuery (guestPath kind node vmid [endpoint.word]) query) extra = .one p)
      (guarded : ConsoleGuarded method (withQuery (guestPath kind node vmid [endpoint.word]) query)
        kind extra)
      (holds : shareHasPermission .view [p.id] [p] = true) :
      shareHasPermission .view [p.id] [kind.pick .vmConsole .lxcConsole] = true := by
    refine guarded (shareOf p) (assertSharedHost_iff.mpr ⟨rfl, ?_⟩)
    rw [asked]
    exact ⟨nofun, holds⟩
  rw [federationPermission_console] at alone
  cases read : isReadMethod (toUpperCase method) with
  | true =>
      refine iff_of_false (fun guarded => ?_) fun both => Bool.noConfusion both.1
      by_cases apt : toLowerCase node.text = "apt"
      · have held := alone (by rw [if_pos apt, read, if_pos rfl]) guarded (by decide)
        revert held
        cases kind <;> decide
      · have held := alone (by rw [if_neg apt, read, if_pos rfl]) guarded
          (by cases checkedKind kind node <;> decide)
        revert held
        cases kind <;> cases checkedKind _ node <;> decide
  | false =>
      simp only [true_and]
      constructor
      · rintro guarded ⟨rfl, qemu⟩
        have apt : toLowerCase node.text ≠ "apt" := by rw [qemu]; decide
        have vm : checkedKind .lxc node = .vm := if_pos (Or.inr qemu)
        have held := alone (by rw [if_neg apt, read, if_neg Bool.false_ne_true, vm]) guarded
          (by decide)
        exact absurd held (by decide)
      · intro apart share admitted
        rw [assertSharedHost_iff, federationPermission_console, read] at admitted
        have same : checkedKind kind node = kind := by
          rw [checkedKind]
          cases kind with
          | vm => exact if_pos (Or.inl rfl)
          | lxc => exact if_neg (by simpa using apart)
        by_cases apt : toLowerCase node.text = "apt"
        · rw [if_pos apt] at admitted
          exact (admitted.2.1 rfl).elim
        · rw [if_neg apt, same] at admitted
          exact admitted.2.2

/-- The node `pve`. -/
def nodePve : PathSegment := ⟨"pve", by decide, by decide⟩

/-- A share for looking on attaches to a console through the WebSocket bridge. -/
theorem view_share_attaches_console :
    ¬ ∀ (method : Text) (kind : GuestKind) (node : PathSegment) (vmid : Nat)
        (endpoint : ConsoleEndpoint) (query : Option Text) (extra : Option FederationExtra),
      ConsoleGuarded method (withQuery (guestPath kind node vmid [endpoint.word]) query) kind
        extra := by
  intro claim
  have held := claim "GET" .vm nodePve 100 .vncwebsocket none none ⟨.view, [], .localHost⟩ (by decide)
  exact absurd held (by decide)

/-! ## Files -/

/-- The `access` of `guestFilePermission`. -/
inductive FileAccess : Type
  | read | write
deriving DecidableEq, Repr

def guestFilePermission (kind : GuestKind) : FileAccess → Permission
  | .read => kind.pick .vmFilesRead .lxcFilesRead
  | .write => kind.pick .vmFilesWrite .lxcFilesWrite

/-- `requireSharedGuestFiles` for a known peer, given what the share lookup found. -/
def requireSharedGuestFiles (share : Option HostShare) (kind : GuestKind) : Except AppError Unit :=
  match share with
  | none => .error (notFoundError "Host not shared")
  | some share =>
      if share.hostOrigin ≠ .localHost then .error (notFoundError "Host not shared")
      else
        let needed := [guestFilePermission kind .read, guestFilePermission kind .write]
        if !shareHasPermission share.level share.permissions needed then
          .error (forbiddenError "This host is not shared at that level")
        else .ok ()

/-- The permissions that an agent endpoint may be classified under. -/
def agentPermissions (kind : GuestKind) : List Permission :=
  [kind.pick .vmView .lxcView, kind.pick .vmConfig .lxcConfig, kind.pick .vmDelete .lxcDelete,
   kind.pick .vmSnapshotCreate .lxcSnapshotCreate, kind.pick .vmSnapshotDelete .lxcSnapshotDelete]

theorem restPermission_mem (kind : GuestKind) (m : Text) (snapshot : Bool) :
    restPermission kind m snapshot ∈ agentPermissions kind := by
  unfold restPermission agentPermissions
  split_ifs <;> simp

/-- What an agent endpoint needs: nothing about files. -/
theorem federationPermission_agent (method : Text) (kind : GuestKind) (node : PathSegment)
    (vmid : Nat) (endpoint : AgentEndpoint) (query : Option Text)
    (extra : Option FederationExtra) :
    if toLowerCase node.text = "apt" then
      federationPermission method
          (withQuery (guestPath kind node vmid ["agent", endpoint.word]) query) extra =
        if isReadMethod (toUpperCase method) then .one .updatesView else .deny
    else
      ∃ p ∈ agentPermissions (checkedKind kind node), federationPermission method
        (withQuery (guestPath kind node vmid ["agent", endpoint.word]) query) extra = .one p := by
  have plain : PlainWords ["agent", endpoint.word] := by cases endpoint <;> decide
  have lowers : ∀ w ∈ guestWords kind (toLowerCase node.text) (PathPart.num vmid).lowerText
      ["agent", endpoint.word], Lower w := lower_guestWords plain
  have free : ∀ w ∈ guestWords kind (toLowerCase node.text) (PathPart.num vmid).lowerText
      ["agent", endpoint.word], '/' ∉ w := free_guestWords plain
  have cut : guestWords kind (toLowerCase node.text) (PathPart.num vmid).lowerText
      ["agent", endpoint.word] =
        [("nodes" : Text), toLowerCase node.text, kind.pick "qemu" "lxc"] ++
          [(PathPart.num vmid).lowerText, "agent", endpoint.word] := rfl
  have noUpdate : (endsIn [.word "apt", .word "update"]).test (slashText (guestWords kind
      (toLowerCase node.text) (PathPart.num vmid).lowerText ["agent", endpoint.word])) = false :=
    test_aptUpdate_ne [("nodes" : Text), toLowerCase node.text, kind.pick "qemu" "lxc",
      (PathPart.num vmid).lowerText] free lowers (by cases endpoint <;> decide)
  have inner : ∀ w : Text, w ≠ "agent" → w ∉ (["agent", endpoint.word] : List Text).dropLast := by
    intro w other member
    exact other (List.mem_singleton.mp member)
  rw [federationPermission_guestPath plain,
    federationRule_guestWords (.agent endpoint.word) lowers (fun _ => GuestAction.number_ne) free,
    noUpdate, Bool.and_false]
  simp only [inner "apt" (by decide), inner "qemu" (by decide), or_false, Bool.false_eq_true, if_false]
  by_cases apt : toLowerCase node.text = "apt"
  · rw [if_pos apt, if_pos apt]
  · rw [if_neg apt]
    simp only [if_neg apt]
    rw [← checkedKind]
    cases isReadMethod (toUpperCase method) with
    | true => exact ⟨_, List.mem_cons_self, rfl⟩
    | false =>
        refine ⟨_, restPermission_mem (checkedKind kind node) (toUpperCase method)
          (decide (("snapshot" : Text) ∈ [("nodes" : Text), toLowerCase node.text,
            kind.pick "qemu" "lxc"] ++ [(PathPart.num vmid).lowerText, "agent", endpoint.word])), ?_⟩
        have noEnding (checked : GuestKind) : endingPermission checked
            (PathPart.num vmid).lowerText "agent" endpoint.word = none := by
          rw [endingPermission_of_ne (Or.inl (by decide)),
            decide_eq_false (GuestAction.number_ne (by decide)), Bool.false_and,
            if_neg Bool.false_ne_true, Option.or_none]
          cases endpoint <;> cases checked <;> rfl
        rw [cut] at lowers free ⊢
        rw [guestActionPermission_slashText free lowers, noEnding, Option.getD_none]
        rfl

/-- The payload of a call to an agent endpoint. -/
def agentPayload (method : Text) (kind : GuestKind) (node : PathSegment) (vmid : Nat)
    (endpoint : AgentEndpoint) (urlQuery : Option Text) (query body : Option (Record Value)) :
    ProxyPayload where
  method := method
  path := withQuery (guestPath kind node vmid ["agent", endpoint.word]) urlQuery
  query := query
  body := body

/-- What the proxy forwards for a share that lets it through. -/
def ProxyPayload.Forwardable (payload : ProxyPayload) : Prop :=
  payload.Proxied ∧ toUpperCase payload.method ∈ (["GET", "POST", "PUT", "DELETE"] : List Text)

theorem exists_federationPost_iff {payload : ProxyPayload} (base : BasePath) (share : HostShare) :
    (∃ sent, federationPost (some share) base payload = .ok sent) ↔
      payload.Forwardable ∧
        assertSharedHost (some share) payload.method payload.path (some payload.extra) = .ok () := by
  have proxied : (∃ sent, proxyPveRequest base payload.method payload.path
      (some payload.textQuery) payload.body = .ok sent) ↔
        (startsWith payload.path "/" = true ∧ includes payload.path ".." = false) ∧
          toUpperCase payload.method ∈ (["GET", "POST", "PUT", "DELETE"] : List Text) := by
    rw [proxyPveRequest]
    cases startsWith payload.path "/" <;> cases includes payload.path ".." <;> simp
    split_ifs <;> simp_all
  rw [federationPost, ProxyPayload.Forwardable, ProxyPayload.Proxied]
  cases parseBody payload with
  | error e => simp
  | ok _ =>
      cases assertSharedHost (some share) payload.method payload.path (some payload.extra) with
      | error e => simp
      | ok _ =>
          simp only [true_and, and_true, ← proxied]
          cases proxyPveRequest base payload.method payload.path (some payload.textQuery)
            payload.body <;> simp

theorem requireSharedGuestFiles_iff {share : HostShare} {kind : GuestKind} :
    requireSharedGuestFiles (some share) kind = .ok () ↔
      share.hostOrigin = .localHost ∧ shareHasPermission share.level share.permissions
        [guestFilePermission kind .read, guestFilePermission kind .write] = true := by
  simp only [requireSharedGuestFiles]
  by_cases origin : share.hostOrigin = .localHost
  · rw [if_neg (not_not_intro origin)]
    cases shareHasPermission share.level share.permissions
      [guestFilePermission kind .read, guestFilePermission kind .write] <;> simp [origin]
  · rw [if_pos origin]
    exact iff_of_false nofun fun both => origin both.1

/-- A share of one such permission holds none for files. -/
theorem agentPermissions_noFiles (checked kind : GuestKind) :
    ∀ p ∈ Permission.updatesView :: agentPermissions checked,
      shareHasPermission .view [p.id] [p] = true ∧ shareHasPermission .view [p.id]
        [guestFilePermission kind .read, guestFilePermission kind .write] = false := by
  cases checked <;> cases kind <;> decide

/-- **When the two routes to the files of a guest agree.**  Only where the proxy
forwards the call for no share. -/
theorem guestFiles_agree_iff (base : BasePath) (method : Text) (kind : GuestKind)
    (node : PathSegment) (vmid : Nat) (endpoint : AgentEndpoint) (urlQuery : Option Text)
    (query body : Option (Record Value)) :
    (∀ share sent, federationPost (some share) base
          (agentPayload method kind node vmid endpoint urlQuery query body) = .ok sent →
        requireSharedGuestFiles (some share) kind = .ok ()) ↔
      ¬ (agentPayload method kind node vmid endpoint urlQuery query body).Forwardable ∨
        (isReadMethod (toUpperCase method) = false ∧ toLowerCase node.text = "apt") := by
  have need := federationPermission_agent method kind node vmid endpoint urlQuery
    (some (agentPayload method kind node vmid endpoint urlQuery query body).extra)
  constructor
  · intro agree
    by_contra neither
    rw [not_or, not_not] at neither
    obtain ⟨forwardable, admitted⟩ := neither
    have asked : ∃ p ∈ Permission.updatesView :: agentPermissions (checkedKind kind node),
        federationPermission method (agentPayload method kind node vmid endpoint urlQuery query
          body).path (some (agentPayload method kind node vmid endpoint urlQuery query
            body).extra) = .one p := by
      by_cases apt : toLowerCase node.text = "apt"
      · have read : isReadMethod (toUpperCase method) = true := by
          by_contra write
          exact admitted ⟨Bool.eq_false_of_not_eq_true write, apt⟩
        rw [if_pos apt, read] at need
        exact ⟨.updatesView, List.mem_cons_self, need⟩
      · rw [if_neg apt] at need
        obtain ⟨p, member, need⟩ := need
        exact ⟨p, List.mem_cons_of_mem _ member, need⟩
    obtain ⟨p, member, asked⟩ := asked
    obtain ⟨holds, noFiles⟩ := agentPermissions_noFiles (checkedKind kind node) kind p member
    obtain ⟨sent, done⟩ := (exists_federationPost_iff base (shareOf p)).mpr
      ⟨forwardable, assertSharedHost_iff.mpr ⟨rfl, asked ▸ ⟨nofun, holds⟩⟩⟩
    have files := (requireSharedGuestFiles_iff.mp (agree _ _ done)).2
    exact absurd files (Bool.eq_false_iff.mp noFiles)
  · intro refused share sent done
    obtain ⟨forwardable, admitted⟩ := (exists_federationPost_iff base share).mp ⟨sent, done⟩
    rcases refused with unforwardable | ⟨write, apt⟩
    · exact (unforwardable forwardable).elim
    · rw [if_pos apt, write] at need
      exact ((assertSharedHost_iff.mp admitted).2.1 need).elim

/-- A share with `vm.config` alone runs commands in the guest. -/
theorem config_share_runs_commands :
    ¬ ∀ (base : BasePath) (method : Text) (kind : GuestKind) (node : PathSegment) (vmid : Nat)
        (endpoint : AgentEndpoint) (urlQuery : Option Text) (query body : Option (Record Value))
        (share : HostShare) (sent : ProxmoxRequest),
      federationPost (some share) base
          (agentPayload method kind node vmid endpoint urlQuery query body) = .ok sent →
        requireSharedGuestFiles (some share) kind = .ok () := by
  intro claim
  obtain ⟨sent, admitted⟩ : ∃ sent, federationPost (some ⟨.view, ["vm.config"], .localHost⟩)
      rootBase (agentPayload "POST" .vm nodePve 100 .exec none none none) = .ok sent :=
    (exists_federationPost_iff rootBase ⟨.view, ["vm.config"], .localHost⟩).mpr
      ⟨⟨⟨rfl, by decide, by decide⟩, by decide⟩, by decide⟩
  have files := claim _ _ _ _ _ _ _ _ _ _ _ admitted
  exact absurd (requireSharedGuestFiles_iff.mp files).2 (by decide)

end Proxora
