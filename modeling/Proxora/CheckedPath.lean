import Proxora.GuestEndpoints

/-!
# The path that is checked and the path that is sent

`federationPermission` reads the path as the peer writes it, fragment and
backslashes included; the URL parser drops the former and takes the latter for
slashes.  `not_followsSentPath` shows for every path that some other path is
sent as the same one and needs something else: each path has a spelling that is
refused and a spelling that is classified as a guest's.
-/

namespace Proxora

open Ecma

/-! ## The two callers -/

/-- Who asks for a shared host: the proxy or the WebSocket bridge. -/
inductive FederationCaller : Type
  | proxy | websocket
deriving DecidableEq, Repr

/-- The caller takes the path: `proxyPveRequest`, `pipeFederationWebsocket`. -/
def FederationCaller.accepts : FederationCaller → Text → Text → Bool
  | .proxy, _, path => startsWith path "/" && !includes path ".."
  | .websocket, method, path => method = "GET" && startsWith path "/"

/-- The path of the URL that is opened, for a path and its query. -/
def FederationCaller.sentPath (caller : FederationCaller) (base : BasePath) (path : Text)
    (query : Option (Record Value)) : List Text :=
  match caller with
  | .proxy => parsePath (base.text ++ "/api2/json" ++ path ++ toSearch query)
  | .websocket => parsePath ("/api2/json" ++ path ++ toSearch query)

/-- What precedes the path in the URL. -/
def FederationCaller.front (caller : FederationCaller) (base : BasePath) : Text :=
  match caller with
  | .proxy => base.text ++ "/api2/json"
  | .websocket => "/api2/json"

/-- The permission checked is that of the resource requested: a fragment does not
change it, and paths that are sent as one need one permission. -/
structure FollowsSentPath (caller : FederationCaller) (base : BasePath) (method path : Text)
    (query : Option (Record Value)) (extra : Option FederationExtra) : Prop where
  fragment : ∀ f, federationPermission method (path ++ '#' :: f) extra =
    federationPermission method path extra
  sent : ∀ path', caller.accepts method path' = true →
    caller.sentPath base path' query = caller.sentPath base path query →
    federationPermission method path' extra = federationPermission method path extra

/-! ## Another spelling of a path -/

/-- A character of the path, so that the check sees neither a slash nor two dots. -/
def disguiseChar (c : Char) : Text :=
  if c = '/' then ['\\'] else if c = '.' then ['.', '\t'] else [c]

/-- The path `/rest`, disguised, with a fragment. -/
def disguise (rest fragment : Text) : Text := '/' :: rest.flatMap disguiseChar ++ '#' :: fragment

theorem slash_notMem_disguised (rest : Text) : '/' ∉ rest.flatMap disguiseChar := by
  intro slash
  obtain ⟨c, _, here⟩ := List.mem_flatMap.mp slash
  unfold disguiseChar at here
  split_ifs at here with same dot
  · exact absurd here (by decide)
  · exact absurd here (by decide)
  · exact same (List.mem_singleton.mp here).symm

/-- Two dots never meet. -/
theorem includes_disguised (rest tail : Text) (plain : includes ('#' :: tail) ".." = false) :
    includes (rest.flatMap disguiseChar ++ '#' :: tail) ".." = false := by
  induction rest with
  | nil => exact plain
  | cons c rest ih =>
      rw [List.flatMap_cons, disguiseChar]
      split_ifs with slash dot
      · rw [List.append_assoc, List.singleton_append, includes, ih]
        rfl
      · rw [List.append_assoc, List.cons_append, List.singleton_append, includes, includes, ih]
        rfl
      · rw [List.append_assoc, List.singleton_append, includes, ih, Bool.or_false]
        have other : ('.' == c) = false := beq_eq_false_iff_ne.mpr (Ne.symm dot)
        show (('.' == c) && _) = false
        rw [other, Bool.false_and]

/-- What the parser makes of the disguise. -/
theorem disguised_read {rest : Text} (noTabs : ∀ c ∈ rest, isTabOrNewline c = false) :
    ((rest.flatMap disguiseChar).filter fun c => !isTabOrNewline c).map
        (fun c => if c = '\\' then '/' else c) =
      rest.map fun c => if c = '\\' then '/' else c := by
  induction rest with
  | nil => rfl
  | cons c rest ih =>
      rw [List.flatMap_cons, List.filter_append, List.map_append,
        ih fun d member => noTabs d (List.mem_cons_of_mem c member), List.map_cons]
      have kept := noTabs c List.mem_cons_self
      by_cases slash : c = '/'
      · subst slash
        rfl
      · by_cases dot : c = '.'
        · subst dot
          rfl
        · rw [disguiseChar, if_neg slash, if_neg dot, List.filter_singleton, kept]
          rfl

/-- The front of the URL is read as it stands. -/
theorem pathPart_front {front : Text} (rest tail : Text) (free : ∀ c ∈ front, c ≠ '?' ∧ c ≠ '#') :
    ∃ read, pathPart (urlInput (front ++ '/' :: rest ++ tail)) =
        front.filter (fun c => !isTabOrNewline c) ++ '/' :: read ∧
      ∀ c ∈ read, isTabOrNewline c = false ∧ c ≠ '?' ∧ c ≠ '#' := by
  have filtered : (front ++ '/' :: rest ++ tail).filter (fun c => !isTabOrNewline c) =
      front.filter (fun c => !isTabOrNewline c) ++
        '/' :: (rest ++ tail).filter fun c => !isTabOrNewline c := by
    rw [List.append_assoc, List.filter_append, List.cons_append, List.filter_cons_of_pos (by decide)]
  obtain ⟨t, trimmed, _⟩ := trimEnd_append_cons (front.filter fun c => !isTabOrNewline c)
    ((rest ++ tail).filter fun c => !isTabOrNewline c) (c := '/') (by decide)
  refine ⟨t.takeWhile fun c => c ≠ '?' && c ≠ '#', ?_, ?_⟩
  · rw [urlInput, filtered, ← trimEnd, trimmed, pathPart, List.takeWhile_append_of_pos,
      List.takeWhile_cons_of_pos (by decide)]
    intro c member
    simpa using free c (List.mem_of_mem_filter member)
  · intro c member
    have marks := List.mem_takeWhile_imp member
    have inside : c ∈ (front ++ '/' :: rest ++ tail).filter fun c => !isTabOrNewline c := by
      have whole : c ∈ trimEnd ((front ++ '/' :: rest ++ tail).filter fun c => !isTabOrNewline c) := by
        rw [filtered, trimmed]
        exact List.mem_append_right _ (List.mem_cons_of_mem _ ((List.takeWhile_subset _) member))
      rw [trimEnd, List.mem_reverse] at whole
      exact List.mem_reverse.mp ((List.dropWhile_subset _) whole)
    refine ⟨by simpa using (List.mem_filter.mp inside).2, ?_⟩
    simpa using marks

/-- The disguised path is read as the path itself. -/
theorem parsePath_disguise {front rest tail fragment : Text}
    (free : ∀ c ∈ front, c ≠ '?' ∧ c ≠ '#') {read : Text}
    (reads : pathPart (urlInput (front ++ '/' :: rest ++ tail)) =
      front.filter (fun c => !isTabOrNewline c) ++ '/' :: read)
    (plain : ∀ c ∈ read, isTabOrNewline c = false ∧ c ≠ '?' ∧ c ≠ '#') :
    parsePath (front ++ disguise read fragment ++ tail) = parsePath (front ++ '/' :: rest ++ tail) := by
  have filtered : (front ++ disguise read fragment ++ tail).filter (fun c => !isTabOrNewline c) =
      (front.filter (fun c => !isTabOrNewline c) ++
        '/' :: (read.flatMap disguiseChar).filter fun c => !isTabOrNewline c) ++
          '#' :: (fragment ++ tail).filter fun c => !isTabOrNewline c := by
    rw [disguise, List.append_assoc, List.filter_append, List.cons_append, List.cons_append,
      List.filter_cons_of_pos (by decide), List.append_assoc, List.filter_append, List.cons_append,
      List.filter_cons_of_pos (by decide), List.append_assoc, List.cons_append]
  have marks : ∀ c ∈ front.filter (fun c => !isTabOrNewline c) ++
      '/' :: (read.flatMap disguiseChar).filter fun c => !isTabOrNewline c,
      (c ≠ '?' && c ≠ '#') = true := by
    intro c member
    rcases List.mem_append.mp member with inFront | inRead
    · simpa using free c (List.mem_of_mem_filter inFront)
    · rcases List.mem_cons.mp inRead with rfl | inside
      · rfl
      · obtain ⟨d, here, made⟩ := List.mem_flatMap.mp (List.mem_of_mem_filter inside)
        have marks := (plain d here).2
        unfold disguiseChar at made
        split_ifs at made with slash dot
        · rw [List.mem_singleton.mp made]
          rfl
        · simp only [List.mem_cons, List.not_mem_nil, or_false] at made
          rcases made with rfl | rfl <;> rfl
        · rw [List.mem_singleton.mp made]
          simpa using marks
  obtain ⟨t, trimmed, _⟩ := trimEnd_append_cons (front.filter (fun c => !isTabOrNewline c) ++
    '/' :: (read.flatMap disguiseChar).filter fun c => !isTabOrNewline c)
    ((fragment ++ tail).filter fun c => !isTabOrNewline c) (c := '#') (by decide)
  have disguised : pathPart (urlInput (front ++ disguise read fragment ++ tail)) =
      front.filter (fun c => !isTabOrNewline c) ++
        '/' :: (read.flatMap disguiseChar).filter fun c => !isTabOrNewline c := by
    rw [urlInput, filtered, ← trimEnd, trimmed, pathPart, List.takeWhile_append_of_pos marks,
      List.takeWhile_cons_of_neg (by decide), List.append_nil]
  rw [parsePath, parsePath, disguised, reads, List.map_append, List.map_append, List.map_cons,
    List.map_cons, disguised_read fun c member => (plain c member).1]

/-! ## What the check makes of the disguise -/

/-- The disguised path is one segment to the check; the fragment follows. -/
theorem lowerPath_disguise {read : Text} {words : List Text} (noMark : '?' ∉ read)
    (plain : PlainWords words) :
    lowerPath (disguise read (slashText words)) =
      slashText ((toLowerCase (read.flatMap disguiseChar) ++ ['#']) :: words) := by
  have built : disguise read (slashText words) =
      slashText ((read.flatMap disguiseChar ++ ['#']) :: words) := by
    simp [disguise, slashText]
  have unmarked : '?' ∉ disguise read (slashText words) := by
    rw [built]
    refine mark_notMem_slashText fun w member => ?_
    rcases List.mem_cons.mp member with rfl | inside
    · intro mark
      rcases List.mem_append.mp mark with here | here
      · obtain ⟨c, inRead, made⟩ := List.mem_flatMap.mp here
        unfold disguiseChar at made
        split_ifs at made
        · exact absurd made (by decide)
        · exact absurd made (by decide)
        · exact noMark (List.mem_singleton.mp made ▸ inRead)
      · exact absurd here (by decide)
    · exact (plain w inside).2
  have kept : words.map toLowerCase = words :=
    (List.map_congr_left fun w member => (plain w member).1.1).trans (List.map_id words)
  have hash : toLowerCase ['#'] = ['#'] := by decide
  rw [lowerPath, split_of_notMem unmarked, List.headD_cons, built, toLowerCase_slashText,
    List.map_cons, kept, toLowerCase_append, hash]

/-- Behind the fragment `/nodes/x/startall` every call is refused. -/
theorem federationRule_startall {u : Text} (free : '/' ∉ u) (m : Text)
    (extra : Option FederationExtra) :
    federationRule m (slashText [u, "nodes", "x", "startall"]) extra = .deny := by
  have words : ∀ w ∈ [u, "nodes", "x", "startall"], '/' ∉ w :=
    List.forall_mem_cons.mpr ⟨free, by decide⟩
  have mass : isMassPower (slashText [u, "nodes", "x", "startall"]) = true := by
    have ends : (nodePath ["startall"]).test (slashText [u, "nodes", "x", "startall"]) = true := by
      have cut : [[], u, "nodes", "x", "startall"] = [[], u] ++ (["nodes", "x", "startall"] : List Text) :=
        rfl
      rw [nodePath, test_endsIn_slashText words (by decide), cut,
        endsInSegments_append (List.cons_ne_nil _ _) rfl]
      decide
    rw [isMassPower, ends, Bool.or_true]
  rw [federationRule, mass, if_pos rfl]

/-- Behind the fragment `/qemu/` every call is one to a guest. -/
theorem federationRule_qemu {u : Text} (free : '/' ∉ u) (lower : Lower u) (other : u ≠ "apt") (m : Text)
    (extra : Option FederationExtra) :
    federationRule m (slashText [u, "qemu", []]) extra =
      if isReadMethod m then .one .vmView
      else .one (guestActionPermission .vm m (slashText [u, "qemu", []])) := by
  have words : ∀ w ∈ [u, "qemu", []], '/' ∉ w := List.forall_mem_cons.mpr ⟨free, by decide⟩
  have lowers : ∀ w ∈ [u, "qemu", []], Lower w := List.forall_mem_cons.mpr ⟨lower, by decide⟩
  have lowerPath : Lower (slashText [u, "qemu", []]) := by
    have slash (w : Text) (lowers : Lower w) : Lower ('/' :: w) := by
      intro c member
      rcases List.mem_cons.mp member with rfl | inside
      · rfl
      · exact lowers c inside
    exact (slash u lower).append (by decide)
  -- the path ends in a slash, no pattern of the node's own endpoints does
  have noNode (front : List Text) {v : Text} (pattern : ∀ w ∈ front ++ [v], IsPatternWord w) :
      (nodePath (front ++ [v])).test (slashText [u, "qemu", []]) = false := by
    rw [Bool.eq_false_iff]
    intro ends
    obtain ⟨before, cut⟩ := exists_last_of_nodePath front lowerPath pattern ends
    rw [split_slashText words] at cut
    have last := congrArg List.getLast? cut
    rw [List.getLast?_append_of_ne_nil _ (List.cons_ne_nil v []), List.getLast?_singleton] at last
    have empty : v = [] := (Option.some.inj last).symm
    have digits := (pattern v (by simp)).2.2
    rw [empty] at digits
    cases digits
  have apt : includes (slashText [u, "qemu", []]) "/apt/" = false := by
    have inner : includes (slashText [u, "qemu", []]) "/apt/" =
        ([u, "qemu", []] : List Text).dropLast.contains "apt".toList :=
      includes_slashes_slashText words (w := "apt") (by decide)
    rw [inner, Bool.eq_false_iff]
    intro found
    simp only [List.dropLast, List.contains_iff_mem, List.mem_cons, List.not_mem_nil, or_false] at found
    rcases found with same | same
    · exact other same.symm
    · exact absurd same (by decide)
  have vm : isGuestPath .vm (slashText [u, "qemu", []]) = true := by
    have inner : (inside (.word (GuestKind.vm.pick "qemu" "lxc"))).test (slashText [u, "qemu", []]) =
        true := by
      rw [test_inside_slashText words (by decide), any_accepts_word
        (fun w member => lowers w (List.dropLast_subset _ member)) (by decide)]
      simp [GuestKind.pick]
    rw [isGuestPath, inner, Bool.true_or]
  have one {v : Text} (pattern : IsPatternWord v) :
      (nodePath [v]).test (slashText [u, "qemu", []]) = false :=
    noNode [] (by simpa using pattern)
  have two {v w : Text} (patterns : ∀ x ∈ [v] ++ [w], IsPatternWord x) :
      (nodePath [v, w]).test (slashText [u, "qemu", []]) = false :=
    noNode [v] patterns
  have mass : isMassPower (slashText [u, "qemu", []]) = false := by
    rw [isMassPower, two (by decide), one (by decide)]
    rfl
  rw [federationRule, mass, apt, two (by decide), two (by decide), one (by decide), one (by decide),
    one (by decide), one (by decide), federationGuestRule, one (by decide), one (by decide), vm]
  simp only [Bool.false_eq_true, if_false, Bool.false_and, Bool.and_false, if_true]

/-! ## No path is safe -/

theorem FederationCaller.sentPath_eq (caller : FederationCaller) (base : BasePath) (path : Text)
    (query : Option (Record Value)) :
    caller.sentPath base path query = parsePath (caller.front base ++ path ++ toSearch query) := by
  cases caller <;> rfl

theorem FederationCaller.front_free (caller : FederationCaller) (base : BasePath) :
    ∀ c ∈ caller.front base, c ≠ '?' ∧ c ≠ '#' := by
  have api : ∀ c ∈ ("/api2/json" : Text), c ≠ '?' ∧ c ≠ '#' := by
    intro c member
    have kept : ("/api2/json" : Text).all (fun c => c ≠ '?' && c ≠ '#') = true := by decide
    simpa using List.all_eq_true.mp kept c member
  cases caller with
  | proxy =>
      intro c member
      rcases List.mem_append.mp member with inBase | inApi
      · exact base.free c inBase
      · exact api c inApi
  | websocket => exact api

/-- Both callers take the disguise of a path they take. -/
theorem FederationCaller.accepts_disguise {caller : FederationCaller} {method path read fragment : Text}
    (accepted : caller.accepts method path = true) (plain : includes ('#' :: fragment) ".." = false) :
    caller.accepts method (disguise read fragment) = true := by
  have starts : startsWith (disguise read fragment) "/" = true := rfl
  cases caller with
  | proxy =>
      have noDots : includes (disguise read fragment) ".." = false := by
        rw [disguise, List.cons_append, includes, includes_disguised read fragment plain]
        rfl
      rw [FederationCaller.accepts, starts, noDots]
      rfl
  | websocket =>
      rw [FederationCaller.accepts, Bool.and_eq_true] at accepted ⊢
      exact ⟨accepted.1, starts⟩

/-- **The permission checked is never that of the resource alone.**  Every path
a caller takes is sent as the same path in two other spellings, of which one is
refused and one is checked as a guest's. -/
theorem not_followsSentPath {caller : FederationCaller} {base : BasePath} {method path : Text}
    {query : Option (Record Value)} {extra : Option FederationExtra}
    (accepted : caller.accepts method path = true) :
    ¬ FollowsSentPath caller base method path query extra := by
  intro follows
  obtain ⟨rest, rfl⟩ : ∃ rest, path = '/' :: rest := by
    have starts : startsWith path "/" = true := by
      cases caller <;> simp only [FederationCaller.accepts, Bool.and_eq_true] at accepted
      · exact accepted.1
      · exact accepted.2
    obtain ⟨rest, cut⟩ := List.isPrefixOf_iff_prefix.mp starts
    exact ⟨rest, cut.symm⟩
  have free := caller.front_free base
  obtain ⟨read, reads, plain⟩ := pathPart_front rest (toSearch query) free
  have noMark : '?' ∉ read := fun mark => (plain '?' mark).2.1 rfl
  have spelling (words : List Text) (words_plain : PlainWords words)
      (noDots : includes ('#' :: slashText words) ".." = false) :
      federationRule (toUpperCase method)
          (slashText ((toLowerCase (read.flatMap disguiseChar) ++ ['#']) :: words)) extra =
        federationPermission method ('/' :: rest) extra := by
    rw [← lowerPath_disguise noMark words_plain]
    refine follows.sent (disguise read (slashText words))
      (FederationCaller.accepts_disguise accepted noDots) ?_
    rw [caller.sentPath_eq, caller.sentPath_eq]
    exact parsePath_disguise free reads plain
  have noSlash : '/' ∉ toLowerCase (read.flatMap disguiseChar) ++ ['#'] := by
    intro slash
    rcases List.mem_append.mp slash with here | here
    · exact slash_notMem_toLowerCase (slash_notMem_disguised read) here
    · exact absurd here (by decide)
  have lower : Lower (toLowerCase (read.flatMap disguiseChar) ++ ['#']) :=
    (lower_toLowerCase _).append (by decide)
  have other : toLowerCase (read.flatMap disguiseChar) ++ ['#'] ≠ "apt" := by
    intro same
    have last := congrArg List.getLast? same
    rw [List.getLast?_append_of_ne_nil _ (List.cons_ne_nil _ _)] at last
    exact absurd last (by decide)
  have refused := spelling ["nodes", "x", "startall"] (by decide) (by decide)
  have guest := spelling ["qemu", []] (by decide) (by decide)
  rw [federationRule_startall noSlash] at refused
  rw [federationRule_qemu noSlash lower other, ← refused] at guest
  split at guest <;> cases guest

theorem not_followsSentPath_startall :
    ¬ FollowsSentPath .proxy rootBase "POST" "/nodes/pve/startall" none none :=
  not_followsSentPath (by decide)

/-- All guests of a node are started under the permission to configure a VM. -/
theorem startall_passes_as_config :
    ¬ ∀ (caller : FederationCaller) (base : BasePath) (method path : Text)
        (query : Option (Record Value)) (extra : Option FederationExtra),
      caller.accepts method path = true → FollowsSentPath caller base method path query extra := by
  intro claim
  have same := (claim .proxy rootBase "POST" "/nodes/pve/startall" none none (by decide)).fragment
    "/qemu/"
  have refused : federationPermission "POST" "/nodes/pve/startall" none = .deny := by decide
  have checked : federationPermission "POST"
      (("/nodes/pve/startall" : Text) ++ '#' :: ("/qemu/" : Text)) none = .one .vmConfig := by decide
  rw [refused] at same
  exact absurd (checked.symm.trans same) (by decide)

end Proxora
