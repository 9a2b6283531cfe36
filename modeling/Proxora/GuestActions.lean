import Proxora.FederationAccess
import Proxora.PathIntegrity

/-!
# Guest actions, local and federated

The guest routes ask `permissionForGuestAction` for the permission of an action;
for a shared host the owner asks `federationPermission` about the call that the
action makes.  `GuestAction.agrees_iff` says when the two name the same
permission: for every action but `sendkey`, unless a node or snapshot name is a
word that a path pattern is looking for.
-/

namespace Proxora

open Ecma

/-! ## Actions -/

/-- The actions a guest route offers, with what they hand to the API class.  The
actions of `GuestAction .vm` alone are those the container route does not know. -/
inductive GuestAction : GuestKind → Type
  | start {kind : GuestKind} : GuestAction kind
  | stop {kind : GuestKind} : GuestAction kind
  | shutdown {kind : GuestKind} : GuestAction kind
  | reboot {kind : GuestKind} : GuestAction kind
  | reset : GuestAction .vm
  | pause : GuestAction .vm
  | resume : GuestAction .vm
  | delete {kind : GuestKind} : GuestAction kind
  | clone {kind : GuestKind} (params : Record Value) : GuestAction kind
  | migrate {kind : GuestKind} (params : Record Value) : GuestAction kind
  | snapshot {kind : GuestKind} (snapname : Text) (description : Option Text) : GuestAction kind
  | snapshotDelete {kind : GuestKind} (snapname : Text) : GuestAction kind
  | snapshotRollback {kind : GuestKind} (snapname : Text) : GuestAction kind
  | config {kind : GuestKind} (body : Record Value) : GuestAction kind
  | resize {kind : GuestKind} (disk size : Text) : GuestAction kind
  | sendkey (key : Text) : GuestAction .vm

namespace GuestAction

variable {kind : GuestKind}

/-- The name of the action in the request body. -/
def id : GuestAction kind → String
  | .start => "start"
  | .stop => "stop"
  | .shutdown => "shutdown"
  | .reboot => "reboot"
  | .reset => "reset"
  | .pause => "pause"
  | .resume => "resume"
  | .delete => "delete"
  | .clone _ => "clone"
  | .migrate _ => "migrate"
  | .snapshot .. => "snapshot"
  | .snapshotDelete _ => "snapshot-delete"
  | .snapshotRollback _ => "snapshot-rollback"
  | .config _ => "config"
  | .resize .. => "resize"
  | .sendkey _ => "sendkey"

/-- The call of `VmApi` or `LxcApi` that carries the action out. -/
def call (node : Text) (vmid : Nat) : GuestAction kind → ApiCall
  | .start => GuestApi.call kind (.start node vmid)
  | .stop => GuestApi.call kind (.stop node vmid)
  | .shutdown => GuestApi.call kind (.shutdown node vmid)
  | .reboot => GuestApi.call kind (.reboot node vmid)
  | .reset => VmApi.call (.reset node vmid)
  | .pause => VmApi.call (.suspend node vmid)
  | .resume => VmApi.call (.resume node vmid)
  | .delete => GuestApi.call kind (.delete node vmid true)
  | .clone params => GuestApi.call kind (.clone node vmid params)
  | .migrate params => GuestApi.call kind (.migrate node vmid params)
  | .snapshot snapname description =>
      GuestApi.call kind (.createSnapshot node vmid snapname description)
  | .snapshotDelete snapname => GuestApi.call kind (.deleteSnapshot node vmid snapname)
  | .snapshotRollback snapname => GuestApi.call kind (.rollbackSnapshot node vmid snapname)
  | .config body => GuestApi.call kind (.updateConfig node vmid body)
  | .resize disk size => GuestApi.call kind (.resize node vmid disk size)
  | .sendkey key => VmApi.call (.sendkey node vmid key)

/-- The permission a shared host asks for. -/
def federated (action : GuestAction kind) (node : Text) (vmid : Nat)
    (extra : Option FederationExtra) : FederationNeed :=
  federationPermission (action.call node vmid).http.method (action.call node vmid).http.path extra

/-! ## Names that patterns are looking for -/

/-- The name is one of the words, capitals or not. -/
def named (name : Text) (words : List Text) : Prop := name.map Char.toLower ∈ words

/-- No name in the path of the action is taken for a part of it. -/
def NamesApart (node : Text) : GuestAction kind → Prop
  | .delete | .config _ | .resize .. => ¬ named node ["snapshot"]
  | .snapshotDelete snapname =>
      ¬ named snapname ["clone", "migrate", "termproxy", "vncproxy", "vncwebsocket"]
  | .snapshotRollback snapname =>
      snapname ≠ [] ∧ ¬ named snapname ["apt"] ∧ (kind = .lxc → ¬ named snapname ["qemu"])
  | .sendkey _ => False
  | _ => True

/-- The action is not `sendkey`, and neither the node nor a snapshot is called
like a word that the patterns look for. -/
def Agrees (action : GuestAction kind) (node : Text) : Prop :=
  ¬ named node ["apt"] ∧ (kind = .lxc → ¬ named node ["qemu"]) ∧ action.NamesApart node

end GuestAction

/-! ## The segments of a guest path -/

/-- A segment as the permission check sees it. -/
def PathPart.lowerText (part : PathPart) : Text := part.text.map Char.toLower

theorem PathPart.lower_lowerText (part : PathPart) : Lower part.lowerText :=
  lower_map_toLower part.text

theorem PathPart.slash_notMem_lowerText (part : PathPart) : '/' ∉ part.lowerText := by
  have ascii : ∀ n < 128, (Char.ofNat n).toLower = '/' → Char.ofNat n = '/' := by decide
  intro slash
  obtain ⟨c, member, lowered⟩ := List.mem_map.mp slash
  have small := ascii_of_uriEncoded (part.uriEncoded_text c member)
  have same := ascii c.toNat small
  rw [Char.ofNat_toNat] at same
  exact part.slash_notMem (same lowered ▸ member)

theorem toLowerCase_slashText (words : List Text) :
    toLowerCase (slashText words) = slashText (words.map toLowerCase) := by
  induction words with
  | nil => rfl
  | cons w words ih =>
      have head : toLowerCase ('/' :: w) = '/' :: toLowerCase w := rfl
      unfold slashText at ih ⊢
      rw [List.flatMap_cons, toLowerCase_append, ih, head, List.map_cons, List.flatMap_cons]

/-- What the check reads of a template. -/
theorem lowerPath_renderPath (parts : List PathPart) :
    lowerPath (renderPath parts) = slashText (parts.map PathPart.lowerText) := by
  have free : '?' ∉ renderPath parts := by
    intro mark
    obtain ⟨segment, inside, here⟩ := List.mem_flatMap.mp mark
    obtain ⟨part, _, rfl⟩ := List.mem_map.mp inside
    rcases List.mem_cons.mp here with slash | inText
    · exact absurd slash (by decide)
    · exact absurd (part.uriEncoded_text '?' inText) (by decide)
  have lowered : ∀ part : PathPart, toLowerCase part.text = part.lowerText := fun part =>
    toLowerCase_of_ascii fun c member => ascii_of_uriEncoded (part.uriEncoded_text c member)
  rw [lowerPath, split_of_notMem free, List.headD_cons, renderPath, toLowerCase_slashText,
    List.map_map]
  exact congrArg slashText (List.map_congr_left fun part _ => lowered part)

/-- What follows the number of the guest in a path. -/
inductive GuestTail : List Text → Prop
  | guest : GuestTail []
  | one (w : Text) : GuestTail [w]
  | agent (w : Text) : GuestTail ["agent", w]
  | status (w : Text) : GuestTail ["status", w]
  | snapshot (name : Text) : GuestTail ["snapshot", name]
  | rollback (name : Text) : GuestTail ["snapshot", name, "rollback"]

/-- The segments of a guest path, in lower case. -/
def guestWords (kind : GuestKind) (node vmid : Text) (tail : List Text) : List Text :=
  "nodes" :: node :: kind.pick "qemu" "lxc" :: vmid :: tail

section GuestPath

variable {kind : GuestKind} {node vmid : Text} {tail : List Text} (shape : GuestTail tail)
  (lowers : ∀ w ∈ guestWords kind node vmid tail, Lower w)
  (number : ∀ w : Text, w.all Char.isDigit = false → vmid ≠ w)
  (free : ∀ w ∈ guestWords kind node vmid tail, '/' ∉ w)

include shape lowers number free

/-- A guest path is none of the node's own endpoints. -/
theorem test_nodePath_guest {w : Text} (word : IsPatternWord w) :
    (nodePath [w]).test (slashText (guestWords kind node vmid tail)) = false := by
  obtain ⟨lower, bare, word⟩ := word
  rw [nodePath, test_endsIn_slashText free (nodePath_plain (by simpa using bare))]
  have lowerNode : Lower node := lowers node (by simp [guestWords])
  have lowerVmid : Lower vmid := lowers vmid (by simp [guestWords])
  cases shape <;> cases kind <;>
    simp (disch := first | assumption | decide) [endsInSegments, acceptsAll, guestWords,
      GuestKind.pick, Piece.accepts_word, Piece.accepts_name, number]

theorem test_nodePath_guest_two {v w : Text} (words : IsPatternWord v ∧ IsPatternWord w) :
    (nodePath [v, w]).test (slashText (guestWords kind node vmid tail)) = false := by
  obtain ⟨⟨lower, bare, word⟩, lower', bare', word'⟩ := words
  rw [nodePath, test_endsIn_slashText free (nodePath_plain (by simpa using And.intro bare bare'))]
  have lowerNode : Lower node := lowers node (by simp [guestWords])
  have lowerVmid : Lower vmid := lowers vmid (by simp [guestWords])
  cases shape <;> cases kind <;>
    simp (disch := first | assumption | decide) [endsInSegments, acceptsAll, guestWords,
      GuestKind.pick, Piece.accepts_word, Piece.accepts_name, number]

omit shape lowers free in
/-- The words that stand between two slashes. -/
theorem mem_guestWords {w : Text} (word : IsPatternWord w) (other : "nodes" ≠ w) :
    w ∈ (guestWords kind node vmid tail).dropLast ↔
      node = w ∨ (kind.pick "qemu" "lxc" : Text) = w ∨ w ∈ tail.dropLast := by
  have first : w ≠ "nodes".toList := other.symm
  have fourth : w ≠ vmid := (number w word.2.2).symm
  unfold guestWords
  generalize ("nodes".toList : Text) = nodes at first
  generalize (kind.pick "qemu" "lxc" : Text) = guests
  cases tail with
  | nil => simp [first, eq_comm]
  | cons v rest => simp [first, fourth, eq_comm]

/-- The rules for a guest path: those of its kind, unless a name in it is `apt`,
or is `qemu` in the path of a container. -/
theorem federationRule_guestWords (m : Text) (extra : Option FederationExtra) :
    federationRule m (slashText (guestWords kind node vmid tail)) extra =
      if node = "apt" ∨ ("apt" : Text) ∈ tail.dropLast then
        if isReadMethod m then .one .updatesView
        else if m = "POST" && (endsIn [.word "apt", .word "update"]).test
            (slashText (guestWords kind node vmid tail)) then .one .updatesCheck
        else .deny
      else
        let checked : GuestKind :=
          if kind = .vm ∨ node = "qemu" ∨ ("qemu" : Text) ∈ tail.dropLast then .vm else .lxc
        if isReadMethod m then .one (checked.pick .vmView .lxcView)
        else .one (guestActionPermission checked m (slashText (guestWords kind node vmid tail))) := by
  have one := fun w => test_nodePath_guest (w := w) shape lowers number free
  have two := fun v w => test_nodePath_guest_two (v := v) (w := w) shape lowers number free
  have apt : includes (slashText (guestWords kind node vmid tail)) "/apt/" =
      decide (node = "apt" ∨ ("apt" : Text) ∈ tail.dropLast) := by
    have inner : includes (slashText (guestWords kind node vmid tail)) "/apt/" =
        (guestWords kind node vmid tail).dropLast.contains "apt".toList :=
      includes_slashes_slashText free (w := "apt") (by decide)
    have others : (kind.pick "qemu" "lxc" : Text) ≠ "apt" := by cases kind <;> decide
    rw [inner, Bool.eq_iff_iff, List.contains_iff_mem, mem_guestWords number (by decide) (by decide),
      decide_eq_true_eq]
    simp only [others, false_or]
  have guests : (inside (.oneOf ["qemu", "lxc"])).test (slashText (guestWords kind node vmid tail)) =
      true := by
    rw [test_inside_slashText free (by decide), List.any_eq_true]
    refine ⟨(kind.pick "qemu" "lxc" : Text), ?_, by cases kind <;> decide⟩
    rw [mem_guestWords number (by cases kind <;> decide) (by cases kind <;> decide)]
    exact Or.inr (Or.inl rfl)
  have kinds : ∀ k : GuestKind, isGuestPath k (slashText (guestWords kind node vmid tail)) =
      decide (kind = k ∨ node = (k.pick "qemu" "lxc" : Text) ∨
        (k.pick "qemu" "lxc" : Text) ∈ tail.dropLast) := by
    intro k
    have pattern : IsPatternWord (k.pick "qemu" "lxc") := by cases k <;> decide
    have same : (kind.pick "qemu" "lxc" : Text) = (k.pick "qemu" "lxc" : Text) ↔ kind = k := by
      cases kind <;> cases k <;> decide
    rw [isGuestPath, one _ pattern, Bool.or_false, test_inside_slashText free (by cases k <;> decide),
      any_accepts_word (fun w member => lowers w (List.dropLast_subset _ member)) pattern.1,
      Bool.eq_iff_iff, List.contains_iff_mem, decide_eq_true_eq,
      mem_guestWords number pattern (by cases k <;> decide), same, or_left_comm]
  have noMass : isMassPower (slashText (guestWords kind node vmid tail)) = false := by
    rw [isMassPower, two _ _ (by decide), one _ (by decide)]
    rfl
  rw [federationRule, noMass, apt, isUnderGuests, guests, two _ _ (by decide), two _ _ (by decide),
    one _ (by decide), one _ (by decide), one _ (by decide), one _ (by decide)]
  simp only [decide_eq_true_eq, Bool.false_eq_true, if_false, Bool.false_and, Bool.not_true,
    Bool.and_false]
  by_cases aptNamed : node = "apt" ∨ ("apt" : Text) ∈ tail.dropLast
  · rw [if_pos aptNamed, if_pos aptNamed]
  · rw [if_neg aptNamed, if_neg aptNamed, federationGuestRule, one _ (by decide), one _ (by decide),
      kinds, kinds]
    simp only [Bool.and_false, Bool.false_eq_true, if_false, decide_eq_true_eq]
    by_cases vm : kind = .vm ∨ node = "qemu" ∨ ("qemu" : Text) ∈ tail.dropLast
    · rw [if_pos vm]
      exact if_pos vm
    · have lxc : kind = .lxc := by
        cases kind with
        | vm => exact absurd (Or.inl rfl) vm
        | lxc => rfl
      rw [if_neg vm]
      refine (if_neg vm).trans ?_
      exact if_pos (Or.inl lxc)

/-- The same for a call that writes. -/
theorem federationRule_guest {m : Text} (write : isReadMethod m = false)
    (extra : Option FederationExtra) :
    federationRule m (slashText (guestWords kind node vmid tail)) extra =
      if node = "apt" ∨ ("apt" : Text) ∈ tail.dropLast then
        if m = "POST" && (endsIn [.word "apt", .word "update"]).test
            (slashText (guestWords kind node vmid tail)) then .one .updatesCheck
        else .deny
      else if kind = .vm ∨ node = "qemu" ∨ ("qemu" : Text) ∈ tail.dropLast then
        .one (guestActionPermission .vm m (slashText (guestWords kind node vmid tail)))
      else .one (guestActionPermission .lxc m (slashText (guestWords kind node vmid tail))) := by
  rw [federationRule_guestWords shape lowers number free, write]
  simp only [Bool.false_eq_true, if_false]
  by_cases vm : kind = .vm ∨ node = "qemu" ∨ ("qemu" : Text) ∈ tail.dropLast
  · rw [if_pos vm, if_pos vm]
  · rw [if_neg vm, if_neg vm]

end GuestPath

/-! ## Named endings -/

/-- The endings below `status` that `guestActionPermission` knows. -/
def statusEndings (kind : GuestKind) : List (Text × Permission) :=
  [("start", kind.pick .vmStart .lxcStart), ("stop", kind.pick .vmForceStop .lxcForceStop),
   ("shutdown", kind.pick .vmShutdown .lxcShutdown), ("reboot", kind.pick .vmReboot .lxcReboot),
   ("reset", .vmReset), ("suspend", .vmPause), ("resume", .vmResume)]

/-- The endings of one segment. -/
def lastEndings (kind : GuestKind) : List (List Text × Permission) :=
  [(["clone"], kind.pick .vmClone .lxcClone), (["migrate"], kind.pick .vmMigrate .lxcMigrate),
   (["termproxy", "vncproxy", "vncwebsocket"], kind.pick .vmConsole .lxcConsole)]

/-- The permission of a path without such an ending, below a snapshot or not. -/
def restPermission (kind : GuestKind) (m : Text) (snapshot : Bool) : Permission :=
  if snapshot then
    if m = "DELETE" then kind.pick .vmSnapshotDelete .lxcSnapshotDelete
    else if m = "POST" then kind.pick .vmSnapshotCreate .lxcSnapshotCreate
    else kind.pick .vmView .lxcView
  else if m = "DELETE" then kind.pick .vmDelete .lxcDelete
  else if m = "PUT" || m = "POST" then kind.pick .vmConfig .lxcConfig
  else kind.pick .vmView .lxcView

/-- The permission of the ending that the last three segments have. -/
def endingPermission (kind : GuestKind) (a b c : Text) : Option Permission :=
  (((statusEndings kind).find? fun ending => b = "status" && c = ending.1).map Prod.snd).or
    ((((lastEndings kind).find? fun ending => ending.1.contains c).map Prod.snd).or
      (if a = "snapshot" && (!b.isEmpty && c = "rollback") then
        some (kind.pick .vmSnapshotRollback .lxcSnapshotRollback)
      else none))

theorem guestActionRules_eq (kind : GuestKind) :
    guestActionRules kind =
      (statusEndings kind).map (fun ending => (endsIn [.word "status", .word ending.1], ending.2)) ++
        ((lastEndings kind).map (fun ending => (endsIn [.oneOf ending.1], ending.2)) ++
          [(endsIn [.word "snapshot", .name, .word "rollback"],
            kind.pick .vmSnapshotRollback .lxcSnapshotRollback)]) := rfl

section Endings

variable {kind : GuestKind} {front : List Text} {a b c : Text}
  (free : ∀ w ∈ front ++ [a, b, c], '/' ∉ w) (lowers : ∀ w ∈ front ++ [a, b, c], Lower w)

include free lowers

theorem test_statusEnding {ending : Text × Permission} (member : ending ∈ statusEndings kind) :
    (endsIn [.word "status", .word ending.1]).test (slashText (front ++ [a, b, c])) =
      (b = "status" && c = ending.1) := by
  have lowerB := lowers b (by simp)
  have lowerC := lowers c (by simp)
  have word : IsPatternWord ending.1 := by
    revert ending
    cases kind <;> decide
  have plain : ∀ p ∈ [Piece.word "status", .word ending.1], p.Plain := by
    revert ending
    cases kind <;> decide
  have cut : [] :: (front ++ [a, b, c]) = ([] :: (front ++ [a])) ++ [b, c] := by simp
  rw [test_endsIn_slashText free plain, cut, endsInSegments_append (List.cons_ne_nil _ _) rfl,
    acceptsAll, acceptsAll, acceptsAll, Bool.and_true, Piece.accepts_word lowerB (by decide),
    Piece.accepts_word lowerC word.1]

theorem test_lastEnding {ending : List Text × Permission} (member : ending ∈ lastEndings kind) :
    (endsIn [.oneOf ending.1]).test (slashText (front ++ [a, b, c])) = ending.1.contains c := by
  have lowerC := lowers c (by simp)
  have words : ∀ w ∈ ending.1, Lower w := by
    revert ending
    cases kind <;> decide
  have plain : ∀ p ∈ [Piece.oneOf ending.1], p.Plain := by
    revert ending
    cases kind <;> decide
  have cut : [] :: (front ++ [a, b, c]) = ([] :: (front ++ [a, b])) ++ [c] := by simp
  rw [test_endsIn_slashText free plain, cut, endsInSegments_append (List.cons_ne_nil _ _) rfl,
    acceptsAll, acceptsAll, Bool.and_true, Piece.accepts_oneOf lowerC words]

theorem test_rollbackEnding :
    (endsIn [.word "snapshot", .name, .word "rollback"]).test (slashText (front ++ [a, b, c])) =
      (a = "snapshot" && (!b.isEmpty && c = "rollback")) := by
  have lowerA := lowers a (by simp)
  have lowerC := lowers c (by simp)
  have cut : [] :: (front ++ [a, b, c]) = ([] :: front) ++ [a, b, c] := by simp
  rw [test_endsIn_slashText free (by decide), cut, endsInSegments_append (List.cons_ne_nil _ _) rfl,
    acceptsAll, acceptsAll, acceptsAll, acceptsAll, Bool.and_true,
    Piece.accepts_word lowerA (by decide), Piece.accepts_name,
    Piece.accepts_word lowerC (by decide)]

theorem find_guestActionRules :
    ((guestActionRules kind).find? fun rule => rule.1.test (slashText (front ++ [a, b, c]))).map
      Prod.snd = endingPermission kind a b c := by
  have status := List.find?_congr fun ending (member : ending ∈ statusEndings kind) =>
    test_statusEnding free lowers member
  have last := List.find?_congr fun ending (member : ending ∈ lastEndings kind) =>
    test_lastEnding free lowers member
  rw [guestActionRules_eq, endingPermission, List.find?_append, List.find?_append, List.find?_map,
    List.find?_map, ← status, ← last, List.find?_singleton, test_rollbackEnding free lowers]
  simp only [Function.comp_def, Option.map_or, Option.map_map, apply_ite (Option.map Prod.snd),
    Option.map_some, Option.map_none]

/-- `guestActionPermission` on the segments of a path. -/
theorem guestActionPermission_slashText (m : Text) :
    guestActionPermission kind m (slashText (front ++ [a, b, c])) =
      (endingPermission kind a b c).getD
        (restPermission kind m (decide (("snapshot" : Text) ∈ front ++ [a, b, c]))) := by
  have snapshot : (insideOrEnd (.word "snapshot")).test (slashText (front ++ [a, b, c])) =
      decide (("snapshot" : Text) ∈ front ++ [a, b, c]) := by
    rw [test_insideOrEnd_slashText free (by decide), any_accepts_word lowers (by decide),
      Bool.eq_iff_iff, List.contains_iff_mem, decide_eq_true_eq]
  rw [← find_guestActionRules free lowers, guestActionPermission, snapshot]
  cases (guestActionRules kind).find? fun rule => rule.1.test (slashText (front ++ [a, b, c])) with
  | some rule => rfl
  | none => rfl

end Endings

/-- Off `status` only the last segments count. -/
theorem endingPermission_of_ne {kind : GuestKind} {a b c : Text}
    (other : b ≠ "status" ∨ ∀ ending ∈ statusEndings kind, c ≠ ending.1) :
    endingPermission kind a b c =
      (((lastEndings kind).find? fun ending => ending.1.contains c).map Prod.snd).or
        (if a = "snapshot" && (!b.isEmpty && c = "rollback") then
          some (kind.pick .vmSnapshotRollback .lxcSnapshotRollback)
        else none) := by
  have nothing : ((statusEndings kind).find? fun ending => b = "status" && c = ending.1) = none := by
    rw [List.find?_eq_none]
    intro ending member
    rcases other with other | others
    · rw [decide_eq_false other]
      exact Bool.false_ne_true
    · rw [decide_eq_false (others ending member), Bool.and_false]
      exact Bool.false_ne_true
  rw [endingPermission, nothing, Option.map_none, Option.none_or]

/-! ## The permission of each action -/

namespace GuestAction

variable {kind : GuestKind}

/-- The segments after the number of the guest, in lower case. -/
def tail : GuestAction kind → List Text
  | .start => ["status", "start"]
  | .stop => ["status", "stop"]
  | .shutdown => ["status", "shutdown"]
  | .reboot => ["status", "reboot"]
  | .reset => ["status", "reset"]
  | .pause => ["status", "suspend"]
  | .resume => ["status", "resume"]
  | .delete => []
  | .clone _ => ["clone"]
  | .migrate _ => ["migrate"]
  | .snapshot .. => ["snapshot"]
  | .snapshotDelete snapname => ["snapshot", (PathPart.arg snapname).lowerText]
  | .snapshotRollback snapname => ["snapshot", (PathPart.arg snapname).lowerText, "rollback"]
  | .config _ => ["config"]
  | .resize .. => ["resize"]
  | .sendkey _ => ["sendkey"]

theorem guestTail (action : GuestAction kind) : GuestTail action.tail := by
  cases action <;> constructor

/-- The segments of the path of an action. -/
def words (action : GuestAction kind) (node : Text) (vmid : Nat) : List Text :=
  guestWords kind (PathPart.arg node).lowerText (PathPart.num vmid).lowerText action.tail

theorem words_eq_map (action : GuestAction kind) (node : Text) (vmid : Nat) :
    action.words node vmid = (action.call node vmid).parts.map PathPart.lowerText := by
  cases kind <;> cases action <;> rfl

theorem lowerPath_call (action : GuestAction kind) (node : Text) (vmid : Nat) :
    lowerPath (action.call node vmid).http.path = slashText (action.words node vmid) := by
  rw [ApiCall.http_path, lowerPath_renderPath, words_eq_map]

theorem free_words (action : GuestAction kind) (node : Text) (vmid : Nat) :
    ∀ w ∈ action.words node vmid, '/' ∉ w := by
  rw [words_eq_map]
  intro w member
  obtain ⟨part, _, rfl⟩ := List.mem_map.mp member
  exact part.slash_notMem_lowerText

theorem lower_words (action : GuestAction kind) (node : Text) (vmid : Nat) :
    ∀ w ∈ action.words node vmid, Lower w := by
  rw [words_eq_map]
  intro w member
  obtain ⟨part, _, rfl⟩ := List.mem_map.mp member
  exact part.lower_lowerText

/-- A number is no word of a pattern. -/
theorem number_ne {n : Nat} {w : Text} (word : w.all Char.isDigit = false) :
    (PathPart.num n).lowerText ≠ w := by
  rintro rfl
  rw [← Bool.not_eq_true] at word
  refine word (List.all_eq_true.mpr fun c member => ?_)
  obtain ⟨d, inside, rfl⟩ := List.mem_map.mp member
  have digit := digits_toString (n := n) d inside
  by_cases upper : d.isUpper = true
  · simp only [Char.isDigit, Char.isUpper, Bool.and_eq_true, decide_eq_true_eq, ge_iff_le,
      UInt32.le_iff_toNat_le] at digit upper
    exact absurd (upper.1.trans digit.2) (by decide)
  · rwa [Char.toLower_eq_of_not_isUpper upper]

/-- No name at the end of the path is taken for the ending of another action. -/
def EndsAlone (node : Text) : GuestAction kind → Prop
  | .delete | .config _ | .resize .. => (PathPart.arg node).lowerText ≠ "snapshot"
  | .snapshotDelete snapname =>
      (PathPart.arg snapname).lowerText ∉
        (["clone", "migrate", "termproxy", "vncproxy", "vncwebsocket"] : List Text)
  | .snapshotRollback snapname => (PathPart.arg snapname).lowerText ≠ []
  | .sendkey _ => False
  | _ => True

theorem permission_of_ending (action : GuestAction kind) {node : Text} {vmid : Nat}
    (front : List Text) (a b c : Text) (cut : action.words node vmid = front ++ [a, b, c])
    {p : Permission} (found : endingPermission kind a b c = some p) (m : Text) :
    guestActionPermission kind m (slashText (action.words node vmid)) = p := by
  have free := action.free_words node vmid
  have lowers := action.lower_words node vmid
  rw [cut] at free lowers ⊢
  rw [guestActionPermission_slashText free lowers, found, Option.getD_some]

/-- What an action gets whose path has no named ending. -/
theorem permission_of_no_ending (action : GuestAction kind) {node : Text} {vmid : Nat}
    (front : List Text) (a b c : Text) (cut : action.words node vmid = front ++ [a, b, c])
    (none : endingPermission kind a b c = none) (m : Text) :
    guestActionPermission kind m (slashText (action.words node vmid)) =
      restPermission kind m (decide (("snapshot" : Text) ∈ front ++ [a, b, c])) := by
  have free := action.free_words node vmid
  have lowers := action.lower_words node vmid
  rw [cut] at free lowers ⊢
  rw [guestActionPermission_slashText free lowers, none, Option.getD_none]

/-- Behind a number only an ending of one segment counts. -/
theorem endingPermission_vmid (kind : GuestKind) {g d : Text} (number : d ≠ "status") (guests : g ≠ "snapshot")
    (w : Text) :
    endingPermission kind g d w =
      ((lastEndings kind).find? fun ending => ending.1.contains w).map Prod.snd := by
  rw [endingPermission_of_ne (Or.inl number), decide_eq_false guests, Bool.false_and,
    if_neg Bool.false_ne_true, Option.or_none]

theorem restPermission_put (kind : GuestKind) (below : Prop) [Decidable below] :
    restPermission kind "PUT" (decide below) = kind.pick .vmConfig .lxcConfig ↔ ¬ below := by
  rw [← decide_eq_false_iff_not]
  cases kind <;> cases decide below <;> decide

theorem restPermission_delete (kind : GuestKind) (below : Prop) [Decidable below] :
    restPermission kind "DELETE" (decide below) = kind.pick .vmDelete .lxcDelete ↔ ¬ below := by
  rw [← decide_eq_false_iff_not]
  cases kind <;> cases decide below <;> decide

theorem restPermission_sendkey (snapshot : Bool) : restPermission .vm "PUT" snapshot ≠ .vmStart := by
  cases snapshot <;> decide

theorem guestActionPermission_iff (action : GuestAction kind) (node : Text) (vmid : Nat) :
    guestActionPermission kind (action.call node vmid).http.method
        (slashText (action.words node vmid)) = permissionForGuestAction kind action.id ↔
      action.EndsAlone node := by
  have number := fun w => number_ne (n := vmid) (w := w)
  generalize numberEq : (PathPart.num vmid).lowerText = d at number
  generalize nodeEq : (PathPart.arg node).lowerText = n
  generalize guestsEq : (kind.pick "qemu" "lxc" : Text) = g
  have words : ∀ action : GuestAction kind,
      action.words node vmid = ("nodes" : Text) :: n :: g :: d :: action.tail := by
    subst numberEq nodeEq guestsEq
    intro action
    rfl
  have guests : g ≠ "status" ∧ g ≠ "snapshot" := by
    subst guestsEq
    cases kind <;> decide
  have single := endingPermission_vmid kind (number "status" (by decide)) guests.2
  have named : ∀ w : Text, ("snapshot" : Text) ≠ w →
      (("snapshot" : Text) ∈ (["nodes", n] : List Text) ++ [g, d, w] ↔ n = "snapshot") := by
    intro w other
    have first : ("snapshot" : Text) ≠ "nodes" := by decide
    simp only [List.cons_append, List.nil_append, List.mem_cons, List.not_mem_nil, first,
      guests.2.symm, (number "snapshot" (by decide)).symm, other, false_or, or_false]
    exact eq_comm
  cases action with
  | start =>
      exact iff_of_true (permission_of_ending _ ["nodes", n, g] d "status" "start" (words _) rfl _)
        trivial
  | stop =>
      exact iff_of_true (permission_of_ending _ ["nodes", n, g] d "status" "stop" (words _) rfl _)
        trivial
  | shutdown =>
      exact iff_of_true (permission_of_ending _ ["nodes", n, g] d "status" "shutdown" (words _) rfl _)
        trivial
  | reboot =>
      exact iff_of_true (permission_of_ending _ ["nodes", n, g] d "status" "reboot" (words _) rfl _)
        trivial
  | reset =>
      exact iff_of_true (permission_of_ending _ ["nodes", n, g] d "status" "reset" (words _) rfl _)
        trivial
  | pause =>
      exact iff_of_true (permission_of_ending _ ["nodes", n, g] d "status" "suspend" (words _) rfl _)
        trivial
  | resume =>
      exact iff_of_true (permission_of_ending _ ["nodes", n, g] d "status" "resume" (words _) rfl _)
        trivial
  | clone params =>
      exact iff_of_true (permission_of_ending _ ["nodes", n] g d "clone" (words _) (single _) _)
        trivial
  | migrate params =>
      exact iff_of_true (permission_of_ending _ ["nodes", n] g d "migrate" (words _) (single _) _)
        trivial
  | config body =>
      rw [permission_of_no_ending _ ["nodes", n] g d "config" (words _) (single _),
        decide_eq_decide.mpr (named "config" (by decide)), EndsAlone, nodeEq]
      exact restPermission_put kind (n = "snapshot")
  | resize disk size =>
      rw [permission_of_no_ending _ ["nodes", n] g d "resize" (words _) (single _),
        decide_eq_decide.mpr (named "resize" (by decide)), EndsAlone, nodeEq]
      exact restPermission_put kind (n = "snapshot")
  | sendkey key =>
      rw [permission_of_no_ending _ ["nodes", n] g d "sendkey" (words _) (single _)]
      exact iff_of_false (restPermission_sendkey _) not_false
  | snapshot snapname description =>
      rw [permission_of_no_ending _ ["nodes", n] g d "snapshot" (words _) (single _),
        decide_eq_true (by simp)]
      exact iff_of_true rfl trivial
  | delete =>
      have noEnding : endingPermission kind n g d = none := by
        rw [endingPermission_of_ne (Or.inl guests.1), decide_eq_false (number "rollback" (by decide)),
          Bool.and_false, Bool.and_false, if_neg Bool.false_ne_true, Option.or_none,
          Option.map_eq_none_iff, List.find?_eq_none]
        intro ending member found
        have names : ∀ ending ∈ lastEndings kind, ∀ w ∈ ending.1, w.all Char.isDigit = false := by
          cases kind <;> decide
        exact number d (names ending member d (List.contains_iff_mem.mp found)) rfl
      have here : ("snapshot" : Text) ∈ (["nodes"] : List Text) ++ [n, g, d] ↔ n = "snapshot" := by
        have first : ("snapshot" : Text) ≠ "nodes" := by decide
        simp only [List.cons_append, List.nil_append, List.mem_cons, List.not_mem_nil, first,
          guests.2.symm, (number "snapshot" (by decide)).symm, false_or, or_false]
        exact eq_comm
      rw [permission_of_no_ending _ ["nodes"] n g d (words _) noEnding, decide_eq_decide.mpr here,
        EndsAlone, nodeEq]
      exact restPermission_delete kind (n = "snapshot")
  | snapshotRollback snapname =>
      generalize nameEq : (PathPart.arg snapname).lowerText = s
      have ending : endingPermission kind "snapshot" s "rollback" =
          if s = [] then none else some (kind.pick .vmSnapshotRollback .lxcSnapshotRollback) := by
        rw [endingPermission_of_ne (Or.inr (by cases kind <;> decide))]
        cases s <;> rfl
      have cut : (snapshotRollback snapname : GuestAction kind).words node vmid =
          (["nodes", n, g, d] : List Text) ++ ([("snapshot" : Text), s, "rollback"]) := by
        rw [words, ← nameEq]
        rfl
      rw [EndsAlone, nameEq]
      by_cases empty : s = []
      · rw [if_pos empty] at ending
        rw [permission_of_no_ending _ _ _ _ _ cut ending, decide_eq_true (by simp)]
        refine iff_of_false ?_ (not_not_intro empty)
        cases kind <;> exact Permission.noConfusion
      · rw [if_neg empty] at ending
        exact iff_of_true (permission_of_ending _ _ _ _ _ cut ending _) empty
  | snapshotDelete snapname =>
      generalize nameEq : (PathPart.arg snapname).lowerText = s
      have cut : (snapshotDelete snapname : GuestAction kind).words node vmid =
          (["nodes", n, g] : List Text) ++ [d, "snapshot", s] := by
        rw [words, ← nameEq]
        rfl
      have ending : endingPermission kind d "snapshot" s =
          ((lastEndings kind).find? fun ending => ending.1.contains s).map Prod.snd := by
        rw [endingPermission_of_ne (Or.inl (by decide)),
          decide_eq_false (number "snapshot" (by decide)), Bool.false_and, if_neg Bool.false_ne_true,
          Option.or_none]
      have names : (lastEndings kind).flatMap Prod.fst =
          (["clone", "migrate", "termproxy", "vncproxy", "vncwebsocket"] : List Text) := rfl
      have others : ∀ entry ∈ lastEndings kind,
          entry.2 ≠ kind.pick .vmSnapshotDelete .lxcSnapshotDelete := by
        cases kind <;> decide
      rw [EndsAlone, nameEq, ← names, List.mem_flatMap]
      cases found : (lastEndings kind).find? fun ending => ending.1.contains s with
      | none =>
          rw [found, Option.map_none] at ending
          rw [permission_of_no_ending _ _ _ _ _ cut ending, decide_eq_true (by simp)]
          rw [List.find?_eq_none] at found
          refine iff_of_true rfl ?_
          rintro ⟨entry, member, inside⟩
          exact found entry member (List.contains_iff_mem.mpr inside)
      | some entry =>
          rw [found, Option.map_some] at ending
          rw [permission_of_ending _ _ _ _ _ cut ending]
          have member := List.mem_of_find?_eq_some found
          have inside := List.find?_some found
          exact iff_of_false (others entry member)
            (not_not_intro ⟨entry, member, List.contains_iff_mem.mp inside⟩)

/-! ## Agreement -/

/-- A name is looked at after `encodeURIComponent`; for plain words that is no
difference. -/
theorem lowerText_mem_iff (name : Text) {words : List Text}
    (plain : ∀ w ∈ words, w.all uriUnreserved = true) :
    (PathPart.arg name).lowerText ∈ words ↔ named name words := by
  constructor
  · intro member
    have same := (map_toLower_encodeURIComponent (plain _ member)).mp rfl
    rwa [named, same]
  · intro member
    have same := (map_toLower_encodeURIComponent (plain _ member)).mpr rfl
    rwa [PathPart.lowerText, PathPart.text, same]

theorem lowerText_eq_iff (name : Text) {w : Text} (plain : w.all uriUnreserved = true) :
    (PathPart.arg name).lowerText = w ↔ named name [w] := by
  rw [← lowerText_mem_iff name (by simpa using plain), List.mem_singleton]

theorem lowerText_eq_nil {name : Text} : (PathPart.arg name).lowerText = [] ↔ name = [] := by
  have same := map_toLower_encodeURIComponent (a := name) (w := []) rfl
  rw [PathPart.lowerText, PathPart.text, same, List.map_eq_nil_iff]

/-- What `guestActionPermission` can answer for a VM. -/
def vmAnswers : List Permission :=
  [.vmStart, .vmForceStop, .vmShutdown, .vmReboot, .vmReset, .vmPause, .vmResume, .vmClone,
   .vmMigrate, .vmConsole, .vmSnapshotRollback, .vmSnapshotDelete, .vmSnapshotCreate, .vmView,
   .vmDelete, .vmConfig]

theorem guestActionPermission_vm_mem (m lower : Text) :
    guestActionPermission .vm m lower ∈ vmAnswers := by
  have rules : ∀ p ∈ (guestActionRules .vm).map Prod.snd, p ∈ vmAnswers := by
    simp only [guestActionRules, List.map_cons, List.map_nil, GuestKind.pick]
    decide
  rw [guestActionPermission]
  split
  · rename_i rule found
    exact rules rule.2 (List.mem_map_of_mem (List.mem_of_find?_eq_some found))
  · split_ifs <;> decide

/-- A container action never needs one of these. -/
theorem guestActionPermission_vm_ne (action : GuestAction .lxc) (m lower : Text) :
    guestActionPermission .vm m lower ≠ permissionForGuestAction .lxc action.id := by
  intro same
  have answer := guestActionPermission_vm_mem m lower
  rw [same] at answer
  cases action <;> simp [permissionForGuestAction, id, GuestKind.pick, vmAnswers] at answer

theorem updatesCheck_ne (action : GuestAction kind) :
    Permission.updatesCheck ≠ permissionForGuestAction kind action.id := by
  cases kind <;> cases action <;> exact Permission.noConfusion

/-- The only name that stands between two segments behind the number. -/
def middleNames : GuestAction kind → List Text
  | .snapshotRollback snapname => [snapname]
  | _ => []

theorem mem_tail_dropLast (action : GuestAction kind) {w : Text} (status : w ≠ "status")
    (snapshot : w ≠ "snapshot") :
    w ∈ action.tail.dropLast ↔ ∃ name ∈ action.middleNames, (PathPart.arg name).lowerText = w := by
  cases action with
  | snapshotRollback snapname =>
      simp only [tail, middleNames, List.dropLast, List.mem_cons, List.not_mem_nil, snapshot,
        false_or, or_false, exists_eq_left]
      exact eq_comm
  | _ => simp only [tail, middleNames, List.dropLast, List.mem_cons, List.not_mem_nil, status,
      snapshot, or_self, false_and, exists_false]

theorem namesApart_iff (action : GuestAction kind) (node : Text) :
    action.NamesApart node ↔
      (∀ name ∈ action.middleNames, ¬ named name ["apt"] ∧ (kind = .lxc → ¬ named name ["qemu"])) ∧
        action.EndsAlone node := by
  have snapshot := lowerText_eq_iff node (w := "snapshot") (by decide)
  have plain : ∀ w ∈ (["clone", "migrate", "termproxy", "vncproxy", "vncwebsocket"] : List Text),
      w.all uriUnreserved = true := by decide
  cases action with
  | snapshotRollback snapname =>
      rw [EndsAlone, NamesApart, middleNames, List.forall_mem_singleton, ne_eq, ne_eq,
        lowerText_eq_nil]
      exact and_comm
  | snapshotDelete snapname =>
      rw [EndsAlone, NamesApart, lowerText_mem_iff snapname plain]
      exact (and_iff_right nofun).symm
  | delete | config | resize =>
      rw [EndsAlone, NamesApart, ne_eq, snapshot]
      all_goals exact (and_iff_right nofun).symm
  | _ => exact (and_iff_right nofun).symm

/-- The condition, on the segments. -/
theorem agrees_words (action : GuestAction kind) (node : Text) :
    action.Agrees node ↔
      ¬ ((PathPart.arg node).lowerText = "apt" ∨ ("apt" : Text) ∈ action.tail.dropLast) ∧
        (kind = .lxc → ¬ ((PathPart.arg node).lowerText = "qemu" ∨
          ("qemu" : Text) ∈ action.tail.dropLast)) ∧ action.EndsAlone node := by
  have apt := fun name => lowerText_eq_iff name (w := "apt") (by decide)
  have qemu := fun name => lowerText_eq_iff name (w := "qemu") (by decide)
  rw [Agrees, namesApart_iff, mem_tail_dropLast action (by decide) (by decide),
    mem_tail_dropLast action (by decide) (by decide)]
  simp only [apt, qemu]
  grind

theorem federated_eq_rule (action : GuestAction kind) (node : Text) (vmid : Nat)
    (extra : Option FederationExtra) :
    action.federated node vmid extra =
      federationRule (action.call node vmid).http.method (slashText (action.words node vmid))
        extra := by
  have capitals : toUpperCase (action.call node vmid).http.method =
      (action.call node vmid).http.method := by
    cases kind <;> cases action <;> rfl
  rw [federated, federationPermission, capitals, lowerPath_call]

/-- **Local and federated authorisation of guest actions.** -/
theorem agrees_iff (action : GuestAction kind) (node : Text) (vmid : Nat)
    (extra : Option FederationExtra) :
    action.federated node vmid extra = .one (permissionForGuestAction kind action.id) ↔
      action.Agrees node := by
  have write : isReadMethod (action.call node vmid).http.method = false := by
    cases kind <;> cases action <;> rfl
  have number := fun w => number_ne (n := vmid) (w := w)
  have rules := federationRule_guest action.guestTail (action.lower_words node vmid) number
    (action.free_words node vmid) write extra
  have permission := action.guestActionPermission_iff node vmid
  rw [federated_eq_rule, words, rules]
  rw [words] at permission
  rw [agrees_words]
  by_cases apt : (PathPart.arg node).lowerText = "apt" ∨ ("apt" : Text) ∈ action.tail.dropLast
  · rw [if_pos apt]
    refine iff_of_false ?_ fun agrees => agrees.1 apt
    split_ifs
    · rw [FederationNeed.one.injEq]
      exact action.updatesCheck_ne
    · exact not_false
  rw [if_neg apt]
  cases kind with
  | vm =>
    rw [if_pos (Or.inl rfl), FederationNeed.one.injEq, permission]
    exact ⟨fun ends => ⟨apt, nofun, ends⟩, fun agrees => agrees.2.2⟩
  | lxc =>
    by_cases qemu : (PathPart.arg node).lowerText = "qemu" ∨ ("qemu" : Text) ∈ action.tail.dropLast
    · rw [if_pos (Or.inr qemu), FederationNeed.one.injEq]
      exact iff_of_false (guestActionPermission_vm_ne action _ _) fun agrees => agrees.2.1 rfl qemu
    · rw [if_neg (not_or.mpr ⟨nofun, qemu⟩), FederationNeed.one.injEq, permission]
      exact ⟨fun ends => ⟨apt, fun _ => qemu, ends⟩, fun agrees => agrees.2.2⟩

/-- `sendkey` is `vm.start` at home and `vm.config` on a shared host. -/
theorem sendkey_disagrees :
    ¬ ∀ (kind : GuestKind) (action : GuestAction kind) (node : Text) (vmid : Nat)
      (extra : Option FederationExtra),
      action.federated node vmid extra = .one (permissionForGuestAction kind action.id) := by
  intro claim
  have needed : (sendkey "spc" : GuestAction .vm).federated "pve" 100 none = .one .vmConfig := by
    decide
  have same := claim .vm (.sendkey "spc") "pve" 100 none
  rw [needed] at same
  exact absurd same (by decide)

end GuestAction

end Proxora
