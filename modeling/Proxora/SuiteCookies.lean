import Proxora.CookieParsing
import Proxora.Ecma.Lines
import Proxora.Ecma.Url
import Proxora.SuitePaths

/-!
# The cookies of embedded apps

`rewriteCookie` of `lib/suite-proxy.ts` on the pieces between the semicolons: the
patterns of the source begin at a semicolon and end before the next one.

`cookie_confined_iff` says which cookies a browser keeps below the mount: the rewriting
misses a Domain whose name stands apart from its equals sign, and every Path after
the first one.
-/

namespace Proxora

open Ecma Cookies

/-! ## The rewriting -/

/-- What follows `/^\s*name/i`, the name given in lower case. -/
def afterName (name piece : Text) : Option Text :=
  let body := piece.dropWhile isSpace
  if startsWith (body.map Char.toLower) name then some (body.drop name.length) else none

/-- `/;\s*Domain=[^;]*/i` matches here. -/
def isDomainPiece (piece : Text) : Bool := (afterName "domain=" piece).isSome

/-- `/;\s*Path=/i` matches here. -/
def isPathPiece (piece : Text) : Bool := (afterName "path=" piece).isSome

/-- `/;\s*Secure\b/i` matches here. -/
def isSecurePiece (piece : Text) : Bool :=
  match afterName "secure" piece with
  | some rest => !(rest.head?.any fun c => c.isAlphanum || c = '_')
  | none => false

/-- The path that is written for one of the app's. -/
def mountedPath (mount raw : Text) : Text :=
  let path : Text := if trim raw = [] then "/" else trim raw
  if path = mount || startsWith path (mount ++ ['/']) then path
  else if path = "/" then mount ++ ['/']
  else if startsWith path "/" then mount ++ path
  else mount ++ '/' :: path

def pathPiece (path : Text) : Text := (" Path=" : Text) ++ path

/-- The first Path replaced. -/
def replacePath (mount : Text) : List Text → List Text
  | [] => []
  | piece :: rest =>
      match afterName "path=" piece with
      | some raw => pathPiece (mountedPath mount raw) :: rest
      | none => piece :: replacePath mount rest

/-- The pieces after the first one. -/
def rewritePieces (mount : Text) (secure : Bool) (pieces : List Text) : List Text :=
  let kept := pieces.filter fun piece => !isDomainPiece piece
  let out :=
    if kept.any isPathPiece then replacePath mount kept
    else kept ++ [pathPiece (mount ++ ['/'])]
  if secure && !(out.any isSecurePiece) then out ++ [(" Secure" : Text)] else out

def rewriteCookie (cookie mount : Text) (secure : Bool) : Text :=
  let pieces := split ';' cookie
  join ';' (pieces.headD [] :: rewritePieces mount secure pieces.tail)

example : rewriteCookie "session=abc; Path=/; Secure" "/ora/sambora" true =
    "session=abc; Path=/ora/sambora/; Secure" := by
  decide

/-! ## What is missed -/

/-- The pieces after the first Path. -/
def afterPath : List Text → List Text
  | [] => []
  | piece :: rest => if isPathPiece piece then rest else afterPath rest

/-- The path that the browser takes from them. -/
def laterPath (kept : List Text) : Option Text := lastOf pathAttribute (afterPath kept)

/-- The browser ignores the cookie; or it keeps it for the host alone, and a Path after the
first one does not lead out of the mount. -/
def Confines (judge : Text → DomainVerdict) (mount cookie : Text) : Prop :=
  let pair := (split ';' cookie).headD []
  let kept := (split ';' cookie).tail.filter fun piece => !isDomainPiece piece
  (pair.contains '=' = false ∨ (parsePair pair).1 = []) ∨
    match ((lastOf domainAttribute kept).filter (· ≠ [])).map judge with
    | some .refused => True
    | some .granted => False
    | some .hostOnly | none =>
        ∀ path ∈ laterPath kept, path.head? = some '/' → Below mount path

/-! ## The pieces that are written -/

section Pieces

variable {mount piece raw path : Text} {kept : List Text}

/-- What the browser does not strip. -/
theorem stripWsp_concat {x : Text} {c : Char} (solid : isWsp c = false) :
    ∃ y, stripWsp (x ++ [c]) = y ++ [c] := by
  have solid' : ¬isWsp c = true := by
    rw [solid]
    exact Bool.false_ne_true
  obtain ⟨y, cut⟩ : ∃ y, (x ++ [c]).dropWhile isWsp = y ++ [c] := by
    rw [List.dropWhile_append]
    split
    · exact ⟨[], List.dropWhile_cons_of_neg solid'⟩
    · exact ⟨x.dropWhile isWsp, rfl⟩
  refine ⟨y, ?_⟩
  unfold stripWsp
  rw [cut, List.rdropWhile_concat_neg _ _ _ solid']

/-- A text that begins and ends with something solid is kept. -/
theorem stripWsp_eq_self {x : Text} {c d : Char} (head : x.head? = some d)
    (solidHead : isWsp d = false) (last : x.getLast? = some c) (solidLast : isWsp c = false) :
    stripWsp x = x := by
  have front : x.dropWhile isWsp = x := by
    cases x with
    | nil => cases head
    | cons e tail =>
        cases head
        exact List.dropWhile_cons_of_neg (by rw [solidHead]; exact Bool.false_ne_true)
  obtain ⟨init, rfl⟩ := List.getLast?_eq_some_iff.mp last
  unfold stripWsp
  rw [front]
  exact List.rdropWhile_concat_neg _ _ _ (by rw [solidLast]; exact Bool.false_ne_true)

/-- A name that is found stands after white space, in whatever case. -/
theorem exists_of_afterName {name rest : Text} (found : afterName name piece = some rest) :
    ∃ front word, piece = front ++ word ++ rest ∧ (∀ c ∈ front, isSpace c = true) ∧
      word.map Char.toLower = name := by
  unfold afterName at found
  dsimp only at found
  split at found
  · next starts =>
    cases found
    have named := List.prefix_iff_eq_take.mp (List.isPrefixOf_iff_prefix.mp starts)
    refine ⟨piece.takeWhile isSpace, (piece.dropWhile isSpace).take name.length, ?_, ?_, ?_⟩
    · rw [List.append_assoc, List.take_append_drop, List.takeWhile_append_dropWhile]
    · exact fun c member => List.mem_takeWhile_imp member
    · rw [← List.map_take] at named
      exact named.symm
  · cases found

/-- The name of a Path piece ends as it should. -/
theorem attributeName_path (isPath : isPathPiece piece = true) :
    (attributeName piece).getLast? = some 'h' := by
  obtain ⟨rest, found⟩ := Option.isSome_iff_exists.mp isPath
  obtain ⟨front, word, rfl, spaces, named⟩ := exists_of_afterName found
  obtain ⟨p, word, rfl, pLower, named⟩ := List.map_eq_cons_iff.mp named
  obtain ⟨a, word, rfl, aLower, named⟩ := List.map_eq_cons_iff.mp named
  obtain ⟨t, word, rfl, tLower, named⟩ := List.map_eq_cons_iff.mp named
  obtain ⟨h, word, rfl, hLower, named⟩ := List.map_eq_cons_iff.mp named
  obtain ⟨e, word, rfl, eLower, named⟩ := List.map_eq_cons_iff.mp named
  obtain rfl : word = [] := List.map_eq_nil_iff.mp named
  have equals : e = '=' := by
    rcases eq_of_toLower eLower with same | same
    · exact same
    · exact same
  subst equals
  have free : ∀ c ∈ front ++ [p, a, t, h], decide (c ≠ '=') = true := by
    intro c member
    refine decide_eq_true fun same => ?_
    subst same
    rcases List.mem_append.mp member with inFront | inWord
    · exact absurd (spaces _ inFront) (by decide)
    · simp only [List.mem_cons, List.not_mem_nil, or_false] at inWord
      rcases inWord with rfl | rfl | rfl | rfl
      · exact absurd pLower (by decide)
      · exact absurd aLower (by decide)
      · exact absurd tLower (by decide)
      · exact absurd hLower (by decide)
  have solid : isWsp h = false := by
    rw [Bool.eq_false_iff]
    intro blank
    unfold isWsp at blank
    rcases Bool.or_eq_true_iff.mp blank with space | tab
    · rw [of_decide_eq_true space] at hLower
      exact absurd hLower (by decide)
    · rw [of_decide_eq_true tab] at hLower
      exact absurd hLower (by decide)
  have name : (front ++ [p, a, t, h, '='] ++ rest).takeWhile (· ≠ '=') =
      (front ++ [p, a, t]) ++ [h] := by
    have shape : front ++ [p, a, t, h, '='] ++ rest = (front ++ [p, a, t, h]) ++ '=' :: rest := by
      simp
    rw [shape, List.takeWhile_append_of_pos free]
    simp
  obtain ⟨y, stripped⟩ := stripWsp_concat (x := front ++ [p, a, t]) solid
  unfold attributeName parsePair
  dsimp only
  rw [name, stripped, List.map_append, List.map_singleton, hLower]
  exact List.getLast?_concat

theorem domainAttribute_path (isPath : isPathPiece piece = true) :
    domainAttribute piece = none := by
  have last := attributeName_path isPath
  unfold domainAttribute
  refine if_neg fun domain => ?_
  rw [of_decide_eq_true (Bool.and_eq_true_iff.mp domain).1] at last
  exact absurd last (by decide)

theorem domainAttribute_pathPiece (path : Text) : domainAttribute (pathPiece path) = none :=
  domainAttribute_path rfl

/-- A path that the browser takes as it is written. -/
structure Mounted (mount path : Text) : Prop where
  below : Below mount path
  slash : path.head? = some '/'
  solid : ∃ c, path.getLast? = some c ∧ isWsp c = false

theorem pathAttribute_pathPiece (mounted : Mounted mount path) :
    pathAttribute (pathPiece path) = some path := by
  obtain ⟨c, last, solid⟩ := mounted.solid
  have slash : isWsp '/' = false := by decide
  have kept : stripWsp path = path := stripWsp_eq_self mounted.slash slash last solid
  have value : (parsePair (pathPiece path)).2 = stripWsp path := rfl
  have name : attributeName (pathPiece path) = "path" := by
    unfold attributeName
    change (stripWsp " Path").map Char.toLower = _
    decide
  unfold pathAttribute
  rw [if_pos name, value, kept]

theorem solid_slash (x : Text) : ∃ c, (x ++ ['/']).getLast? = some c ∧ isWsp c = false :=
  ⟨'/', List.getLast?_concat, by decide⟩

/-- What is trimmed ends with something solid. -/
theorem solid_trim (some_text : trim raw ≠ []) :
    ∃ c, (trim raw).getLast? = some c ∧ isWsp c = false := by
  have last : ¬isSpace ((trim raw).getLast some_text) = true :=
    List.rdropWhile_last_not isSpace (raw.dropWhile isSpace) some_text
  refine ⟨_, List.getLast?_eq_getLast_of_ne_nil some_text, ?_⟩
  refine Bool.eq_false_iff.mpr fun blank => last ?_
  unfold isWsp at blank
  rcases Bool.or_eq_true_iff.mp blank with space | tab
  · rw [of_decide_eq_true space]
    decide
  · rw [of_decide_eq_true tab]
    decide

/-- The last character is that of the path. -/
theorem solid_append {x y : Text} (solid : ∃ c, y.getLast? = some c ∧ isWsp c = false) :
    ∃ c, (x ++ y).getLast? = some c ∧ isWsp c = false := by
  obtain ⟨c, last, notBlank⟩ := solid
  refine ⟨c, ?_, notBlank⟩
  rw [List.getLast?_append, last]
  rfl

theorem head_append {x : Text} (slash : x.head? = some '/') (y : Text) :
    (x ++ y).head? = some '/' := by
  rw [List.head?_append, slash]
  rfl

/-- **What the rewriting writes is below the mount.** -/
theorem mounted_mountedPath (slash : mount.head? = some '/') (raw : Text) :
    Mounted mount (mountedPath mount raw) := by
  unfold mountedPath
  dsimp only
  have solid : ∃ c, (if trim raw = [] then ("/" : Text) else trim raw).getLast? = some c ∧
      isWsp c = false := by
    split
    · exact solid_slash []
    · next some_text => exact solid_trim some_text
  generalize (if trim raw = [] then ("/" : Text) else trim raw) = path at solid ⊢
  split
  · next within =>
    rcases Bool.or_eq_true_iff.mp within with same | starts
    · obtain rfl : path = mount := of_decide_eq_true same
      exact ⟨.inl rfl, slash, solid⟩
    · have below : mount ++ ['/'] <+: path := List.isPrefixOf_iff_prefix.mp starts
      refine ⟨.inr below, ?_, solid⟩
      obtain ⟨tail, rfl⟩ := below
      exact head_append (head_append slash ['/']) tail
  · split
    · exact ⟨below_append mount [], head_append slash ['/'], solid_slash mount⟩
    · split
      · next rooted =>
        obtain ⟨tail, rfl⟩ : ("/" : Text) <+: path := List.isPrefixOf_iff_prefix.mp rooted
        exact ⟨below_append mount tail, head_append slash _, solid_append solid⟩
      · have shape : mount ++ '/' :: path = (mount ++ ['/']) ++ path := by simp
        refine ⟨below_append mount path, head_append slash _, ?_⟩
        rw [shape]
        exact solid_append solid

/-! ## What the browser reads of them -/

variable {pieces : List Text} {secure : Bool}

theorem domains_replacePath (mount : Text) (kept : List Text) :
    (replacePath mount kept).filterMap domainAttribute = kept.filterMap domainAttribute := by
  induction kept with
  | nil => rfl
  | cons piece rest ih =>
      rw [replacePath]
      cases found : afterName "path=" piece with
      | some raw =>
          have isPath : isPathPiece piece = true := by
            unfold isPathPiece
            rw [found]
            rfl
          rw [List.filterMap_cons_none (domainAttribute_pathPiece _),
            List.filterMap_cons_none (domainAttribute_path isPath)]
      | none =>
          rw [List.filterMap_cons, List.filterMap_cons, ih]

/-- The first Path and what follows it. -/
theorem exists_replacePath (slash : mount.head? = some '/')
    (isPath : kept.any isPathPiece = true) :
    ∃ front path, Mounted mount path ∧
      replacePath mount kept = front ++ pathPiece path :: afterPath kept := by
  induction kept with
  | nil => cases isPath
  | cons piece rest ih =>
      rw [replacePath, afterPath]
      rw [List.any_cons, isPathPiece] at isPath
      rw [isPathPiece]
      cases found : afterName "path=" piece with
      | some raw => exact ⟨[], mountedPath mount raw, mounted_mountedPath slash raw, rfl⟩
      | none =>
          rw [found] at isPath
          obtain ⟨front, path, mounted, written⟩ := ih isPath
          exact ⟨piece :: front, path, mounted, congrArg (piece :: ·) written⟩

theorem afterPath_of_none (noPath : kept.any isPathPiece = false) : afterPath kept = [] := by
  induction kept with
  | nil => rfl
  | cons piece rest ih =>
      rw [List.any_cons, Bool.or_eq_false_iff] at noPath
      rw [afterPath, noPath.1]
      exact ih noPath.2

/-- The pieces once the Domains are gone, and what the last step adds to them. -/
def pathedPieces (mount : Text) (kept : List Text) : List Text :=
  if kept.any isPathPiece then replacePath mount kept else kept ++ [pathPiece (mount ++ ['/'])]

theorem domains_pathedPieces (mount : Text) (kept : List Text) :
    (pathedPieces mount kept).filterMap domainAttribute = kept.filterMap domainAttribute := by
  unfold pathedPieces
  split
  · exact domains_replacePath mount kept
  · rw [List.filterMap_append, List.filterMap_cons_none (domainAttribute_pathPiece _),
      List.filterMap_nil, List.append_nil]

theorem lastPath_pathedPieces (slash : mount.head? = some '/') (kept : List Text) :
    ∃ path, Mounted mount path ∧
      lastOf pathAttribute (pathedPieces mount kept) = some ((laterPath kept).getD path) := by
  unfold pathedPieces
  cases isPath : kept.any isPathPiece with
  | true =>
      obtain ⟨front, path, mounted, written⟩ := exists_replacePath slash isPath
      refine ⟨path, mounted, ?_⟩
      have first : lastOf pathAttribute [pathPiece path] = some path := by
        unfold lastOf
        rw [List.filterMap_cons_some (pathAttribute_pathPiece mounted)]
        rfl
      have shape : front ++ pathPiece path :: afterPath kept =
          front ++ ([pathPiece path] ++ afterPath kept) := rfl
      rw [if_pos rfl, written, shape, lastOf_append, lastOf_append, first, ← laterPath]
      cases laterPath kept <;> rfl
  | false =>
      have mounted : Mounted mount (mount ++ ['/']) :=
        ⟨below_append mount [], head_append slash ['/'], solid_slash mount⟩
      have last : lastOf pathAttribute [pathPiece (mount ++ ['/'])] = some (mount ++ ['/']) := by
        unfold lastOf
        rw [List.filterMap_cons_some (pathAttribute_pathPiece mounted)]
        rfl
      refine ⟨mount ++ ['/'], mounted, ?_⟩
      rw [if_neg Bool.false_ne_true, lastOf_append, last, laterPath, afterPath_of_none isPath]
      rfl

/-- What is added for `secure` has neither a domain nor a path. -/
theorem exists_rewritePieces (mount : Text) (secure : Bool) (pieces : List Text) :
    ∃ more : List Text, rewritePieces mount secure pieces =
        pathedPieces mount (pieces.filter fun piece => !isDomainPiece piece) ++ more ∧
      more.filterMap domainAttribute = [] ∧ more.filterMap pathAttribute = [] := by
  unfold rewritePieces
  dsimp only
  rw [← pathedPieces]
  split
  · exact ⟨[(" Secure" : Text)], rfl, by decide, by decide⟩
  · exact ⟨[], (List.append_nil _).symm, rfl, rfl⟩

/-- **What the browser reads**: the domain of the pieces that are kept, and a path below the
mount unless another one follows. -/
theorem lastOf_rewritePieces (slash : mount.head? = some '/') (secure : Bool)
    (pieces : List Text) :
    lastOf domainAttribute (rewritePieces mount secure pieces) =
        lastOf domainAttribute (pieces.filter fun piece => !isDomainPiece piece) ∧
      ∃ path, Mounted mount path ∧
        lastOf pathAttribute (rewritePieces mount secure pieces) =
          some ((laterPath (pieces.filter fun piece => !isDomainPiece piece)).getD path) := by
  obtain ⟨more, written, noDomain, noPath⟩ := exists_rewritePieces mount secure pieces
  obtain ⟨path, mounted, last⟩ :=
    lastPath_pathedPieces slash (pieces.filter fun piece => !isDomainPiece piece)
  constructor
  · unfold lastOf
    rw [written, List.filterMap_append, noDomain, List.append_nil, domains_pathedPieces]
  · refine ⟨path, mounted, ?_⟩
    have nothing : lastOf pathAttribute more = none := by
      unfold lastOf
      rw [noPath]
      rfl
    rw [written, lastOf_append, nothing, Option.none_or, last]

/-! ## The header as a whole -/

theorem mem_mountedPath {c : Char} (member : c ∈ mountedPath mount raw) :
    c ∈ mount ∨ c = '/' ∨ c ∈ raw := by
  unfold mountedPath at member
  dsimp only at member
  have ofPath (inPath : c ∈ if trim raw = [] then ("/" : Text) else trim raw) :
      c = '/' ∨ c ∈ raw := by
    split at inPath
    · exact .inl (List.mem_singleton.mp inPath)
    · exact .inr (mem_of_mem_trim inPath)
  generalize (if trim raw = [] then ("/" : Text) else trim raw) = path at member ofPath
  split at member
  · exact .inr (ofPath member)
  · split at member
    · rcases List.mem_append.mp member with inMount | slash
      · exact .inl inMount
      · exact .inr (.inl (List.mem_singleton.mp slash))
    · split at member
      · exact (List.mem_append.mp member).imp_right ofPath
      · rcases List.mem_append.mp member with inMount | inRest
        · exact .inl inMount
        · rcases List.mem_cons.mp inRest with slash | inPath
          · exact .inr (.inl slash)
          · exact .inr (ofPath inPath)

theorem semicolon_replacePath (freeMount : ';' ∉ mount) (free : ∀ piece ∈ kept, ';' ∉ piece) :
    ∀ piece ∈ replacePath mount kept, ';' ∉ piece := by
  induction kept with
  | nil => exact free
  | cons first rest ih =>
      obtain ⟨freeFirst, freeRest⟩ := List.forall_mem_cons.mp free
      rw [replacePath]
      cases found : afterName "path=" first with
      | none => exact List.forall_mem_cons.mpr ⟨freeFirst, ih freeRest⟩
      | some raw =>
          refine List.forall_mem_cons.mpr ⟨?_, freeRest⟩
          intro member
          rcases List.mem_append.mp member with inName | inPath
          · exact absurd inName (by decide)
          · rcases mem_mountedPath inPath with inMount | slash | inRaw
            · exact freeMount inMount
            · exact absurd slash (by decide)
            · obtain ⟨front, word, rfl, -, -⟩ := exists_of_afterName found
              exact freeFirst (List.mem_append_right _ inRaw)

theorem semicolon_rewritePieces (freeMount : ';' ∉ mount) (free : ∀ piece ∈ pieces, ';' ∉ piece) :
    ∀ piece ∈ rewritePieces mount secure pieces, ';' ∉ piece := by
  have freeKept : ∀ piece ∈ pieces.filter fun piece => !isDomainPiece piece, ';' ∉ piece :=
    fun piece member => free piece (List.mem_of_mem_filter member)
  have pathed : ∀ piece ∈ pathedPieces mount (pieces.filter fun piece => !isDomainPiece piece),
      ';' ∉ piece := by
    unfold pathedPieces
    split
    · exact semicolon_replacePath freeMount freeKept
    · refine List.forall_mem_append.mpr ⟨freeKept, List.forall_mem_singleton.mpr ?_⟩
      intro member
      rcases List.mem_append.mp member with inName | inPath
      · exact absurd inName (by decide)
      · rcases List.mem_append.mp inPath with inMount | slash
        · exact freeMount inMount
        · exact absurd slash (by decide)
  unfold rewritePieces
  dsimp only
  rw [← pathedPieces]
  split
  · exact List.forall_mem_append.mpr ⟨pathed, List.forall_mem_singleton.mpr (by decide)⟩
  · exact pathed

/-- The browser reads the pieces that were written. -/
theorem split_rewriteCookie {cookie : Text} (freeMount : ';' ∉ mount) :
    split ';' (rewriteCookie cookie mount secure) =
      (split ';' cookie).headD [] :: rewritePieces mount secure (split ';' cookie).tail := by
  have free : ∀ piece ∈ split ';' cookie, ';' ∉ piece := fun _ member =>
    sep_notMem_of_mem_split member
  obtain ⟨pair, pieces, cut⟩ := List.exists_cons_of_ne_nil (split_ne_nil ';' cookie)
  rw [cut] at free
  obtain ⟨freePair, freePieces⟩ := List.forall_mem_cons.mp free
  unfold rewriteCookie
  dsimp only
  rw [cut]
  refine split_join (List.cons_ne_nil _ _) (List.forall_mem_cons.mpr ⟨freePair, ?_⟩)
  exact semicolon_rewritePieces freeMount freePieces

end Pieces

/-! ## What is stored -/

section Stored

variable {id : Text}

theorem semicolon_notMem_mount (valid : isMountId id = true) : ';' ∉ suiteProxyPrefix id := by
  intro member
  rcases List.mem_append.mp member with inRoot | inId
  · exact absurd inRoot (by decide)
  · exact absurd (isIdChar_of_mem valid inId) (by decide)

theorem below_cookiePath {mount path : Text} {attributes : List Text} {later : Option Text}
    (slash : mount.head? = some '/') (rest : Text) (mounted : Mounted mount path)
    (last : lastOf pathAttribute attributes = some (later.getD path)) :
    Below mount (cookiePath (mount ++ '/' :: rest) attributes) ↔
      ∀ path ∈ later, path.head? = some '/' → Below mount path := by
  unfold cookiePath
  rw [last]
  dsimp only
  cases later with
  | none =>
      refine iff_of_true ?_ fun path member => by cases member
      rw [Option.getD_none, if_pos mounted.slash]
      exact mounted.below
  | some other =>
      rw [Option.getD_some]
      split
      · next rooted =>
        constructor
        · rintro below path ⟨⟩ -
          exact below
        · intro within
          exact within other rfl rooted
      · next relative =>
        refine iff_of_true (below_defaultPath slash rest) ?_
        rintro path ⟨⟩ rooted
        exact absurd rooted relative

/-- **Which cookies are confined.** -/
theorem cookie_confined_iff (valid : isMountId id = true) (judge : Text → DomainVerdict)
    (rest cookie : Text) (secure : Bool) :
    (∀ stored ∈ storeCookie judge (suiteProxyPrefix id ++ '/' :: rest)
        (rewriteCookie cookie (suiteProxyPrefix id) secure),
      Below (suiteProxyPrefix id) stored.path ∧ stored.domain = none) ↔
      Confines judge (suiteProxyPrefix id) cookie := by
  have slash : (suiteProxyPrefix id).head? = some '/' := rfl
  have pieces : split ';' (rewriteCookie cookie (suiteProxyPrefix id) secure) =
      (split ';' cookie).headD [] ::
        rewritePieces (suiteProxyPrefix id) secure (split ';' cookie).tail :=
    split_rewriteCookie (semicolon_notMem_mount valid)
  generalize suiteProxyPrefix id = mount at slash pieces ⊢
  obtain ⟨domain, path, mounted, last⟩ := lastOf_rewritePieces slash secure (split ';' cookie).tail
  have within := below_cookiePath slash rest mounted last
  unfold storeCookie Confines
  rw [pieces]
  dsimp only [List.headD_cons, List.tail_cons]
  rw [domain]
  generalize (split ';' cookie).headD [] = pair
  generalize cookiePath (mount ++ '/' :: rest) _ = stored at within ⊢
  have kept (name value : Text) :
      (∀ cookie ∈ some (StoredCookie.mk name value none stored),
        Below mount cookie.path ∧ cookie.domain = none) ↔ Below mount stored := by
    constructor
    · intro confined
      exact (confined _ rfl).1
    · rintro below cookie ⟨⟩
      exact ⟨below, rfl⟩
  split
  · next unnamed =>
    refine iff_of_true (fun cookie member => by cases member) (.inl ?_)
    rw [Bool.or_eq_true, decide_eq_true_eq, Bool.not_eq_eq_eq_not] at unnamed
    exact unnamed
  · next named =>
    have some_name : ¬(pair.contains '=' = false ∨ (parsePair pair).1 = []) := by
      rw [Bool.or_eq_true, decide_eq_true_eq, Bool.not_eq_eq_eq_not] at named
      exact named
    rw [or_iff_right some_name]
    cases (lastOf domainAttribute ((split ';' cookie).tail.filter
        fun piece => !isDomainPiece piece)).filter (· ≠ []) with
    | none => exact (kept _ _).trans within
    | some name =>
        dsimp only [Option.map_some]
        cases judge name with
        | refused => exact iff_of_true (fun cookie member => by cases member) trivial
        | hostOnly => exact (kept _ _).trans within
        | granted =>
            refine iff_of_false (fun confined => ?_) not_false
            exact absurd (confined _ rfl).2 (Option.some_ne_none name)

/-- A second Path wins over the one that was rewritten. -/
theorem second_path_escapes :
    ¬∀ stored ∈ storeCookie (fun _ => .refused) "/ora/sambora/login"
        (rewriteCookie "sid=1; Path=/; Path=/" "/ora/sambora" true),
      Below "/ora/sambora" stored.path ∧ stored.domain = none := by
  intro confined
  have stored : storeCookie (fun _ => .refused) "/ora/sambora/login"
      (rewriteCookie "sid=1; Path=/; Path=/" "/ora/sambora" true) =
        some ⟨"sid", "1", none, "/"⟩ := by
    decide
  exact absurd (confined _ stored).1 (by decide)

theorem cookie_confined_session :
    (∀ stored ∈ storeCookie (fun _ => .granted) (suiteProxyPrefix "sambora" ++ '/' :: "login")
        (rewriteCookie "sid=1; Domain=sambora.lan; Path=/" (suiteProxyPrefix "sambora") false),
      Below (suiteProxyPrefix "sambora") stored.path ∧ stored.domain = none) ↔
      Confines (fun _ => .granted) (suiteProxyPrefix "sambora")
        "sid=1; Domain=sambora.lan; Path=/" := by
  have valid : isMountId "sambora" = true := by decide
  exact cookie_confined_iff valid _ _ _ _

end Stored

end Proxora
