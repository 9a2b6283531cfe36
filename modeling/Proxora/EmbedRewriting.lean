import Proxora.Rewriting
import Proxora.SuitePaths

/-!
# The bodies of embedded apps

`lib/suite-proxy.ts` writes the mount into the paths of a style sheet or script that an
embedded app answers with: into link targets, behind quotes and in `url(…)`.

`rewriteEmbedBody_twice` says that a body that has been rewritten is left alone.
-/

namespace Proxora

open Ecma

/-! ## The passes -/

/-- `API_ROOTS`. -/
def apiRoots : List Text := ["/api/"]

/-- `[...STATIC_ROOTS, ...API_ROOTS]`. -/
def embedRoots : List Text := staticRoots ++ apiRoots

inductive RewriteKind where
  | html
  | css
  | js
deriving DecidableEq, Repr

/-- The `token` of `rewriteJsHrefs`. -/
def hrefToken : Text := "href:\"/"

/-- What the loop of `rewriteJsHrefs` makes of a token: it stays where the path is an address
with a host or below the mount already. -/
def jsHref (mount : Text) : Pattern Char where
  find body :=
    if startsWith body hrefToken then
      let rest := body.drop hrefToken.length
      if startsWith rest "/" || startsWith rest (mount.drop 1) then some (hrefToken, rest)
      else some (("href:\"" : Text) ++ mount ++ "/", rest)
    else none
  reads := by
    intro body piece rest found
    split at found
    · next starts =>
        obtain ⟨behind, rfl⟩ := List.isPrefixOf_iff_prefix.mp starts
        refine ⟨hrefToken, List.cons_ne_nil _ _, ?_⟩
        rw [List.drop_left] at found
        dsimp only at found
        split at found
        · cases found
          rfl
        · cases found
          rfl
    · cases found

def rewriteJsHrefs (body mount : Text) : Text := (jsHref mount).replace body

/-- `body.split(token).join(replacement)`, the token not being empty. -/
def spliceOnce (body token replacement : Text) : Text :=
  if !includes body token || token = replacement then body
  else (Pattern.word token replacement).replace body

/-- The round of `rewriteRoots` for one root. -/
def rewriteRoot (mount out root : Text) : Text :=
  let next := suiteAssetPath mount root
  let out := spliceOnce out ('"' :: root) ('"' :: next)
  let out := spliceOnce out ('\'' :: root) ('\'' :: next)
  spliceOnce out ('\\' :: '"' :: root) ('\\' :: '"' :: next)

def rewriteRoots (body mount : Text) : Text := embedRoots.foldl (rewriteRoot mount) body

def needsRootRewrite (body : Text) : Bool :=
  embedRoots.any fun root =>
    includes body ('"' :: root) || includes body ('\'' :: root) ||
      includes body ('\\' :: '"' :: root)

/-- `['"]`. -/
def isQuote (c : Char) : Bool := c = '\'' || c = '"'

/-- `[^)'"]`. -/
def isUrlChar (c : Char) : Bool := !(c = ')' || isQuote c)

/-- The parts of a match of `/url\(\s*(['"]?)(\/(?!\/)[^)'"]*)/`. -/
structure CssUrl where
  blanks : Text
  quote : Text
  path : Text
deriving DecidableEq, Repr

/-- The text of the match. -/
def CssUrl.full (url : CssUrl) : Text := ("url(" : Text) ++ url.blanks ++ url.quote ++ url.path

/-- `(['"]?)` at the front of a text, and what follows. -/
def splitQuote : Text → Text × Text
  | [] => ([], [])
  | c :: s => if isQuote c then ([c], s) else ([], c :: s)

/-- The match at the front of a text, and what follows it. -/
def readCssUrl (s : Text) : Option (CssUrl × Text) :=
  if startsWith s "url(" then
    let inner := s.drop 4
    let quoted := splitQuote (inner.dropWhile isSpace)
    let target := quoted.2
    if startsWith target "/" && !startsWith target "//" then
      some (⟨inner.takeWhile isSpace, quoted.1, target.takeWhile isUrlChar⟩,
        target.dropWhile isUrlChar)
    else none
  else none

/-- The callback of `rewriteCssUrls`. -/
def cssUrlPiece (mount : Text) (url : CssUrl) : Text :=
  if url.path = mount || startsWith url.path (mount ++ "/") then url.full
  else ("url(" : Text) ++ url.quote ++ suiteAssetPath mount url.path

/-! ## Reading an address of a style sheet -/

/-- The parts are those of a match, and the path goes as far as it can. -/
structure CssUrl.Fits (url : CssUrl) (rest : Text) : Prop where
  blanks : ∀ c ∈ url.blanks, isSpace c = true
  quote : url.quote = [] ∨ ∃ q, isQuote q = true ∧ url.quote = [q]
  slash : ("/" : Text) <+: url.path
  single : ¬("//" : Text) <+: url.path
  path : ∀ c ∈ url.path, isUrlChar c = true
  whole : ∀ c, rest.head? = some c → isUrlChar c = false

section Reading

variable {s rest a b : Text} {url : CssUrl}

/-- Where a run of characters ends. -/
theorem takeWhile_dropWhile_iff {p : Char → Bool} :
    s.takeWhile p = a ∧ s.dropWhile p = b ↔
      s = a ++ b ∧ (∀ c ∈ a, p c = true) ∧ ∀ c, b.head? = some c → p c = false := by
  constructor
  · rintro ⟨rfl, rfl⟩
    refine ⟨List.takeWhile_append_dropWhile.symm, fun c => List.mem_takeWhile_imp, ?_⟩
    intro c head
    have stops := List.head?_dropWhile_not p s
    rw [head] at stops
    exact stops
  · rintro ⟨rfl, inside, stops⟩
    have none_taken : b.takeWhile p = [] ∧ b.dropWhile p = b := by
      cases b with
      | nil => exact ⟨rfl, rfl⟩
      | cons c b =>
          have stop := stops c rfl
          exact ⟨List.takeWhile_cons_of_neg (Bool.eq_false_iff.mp stop),
            List.dropWhile_cons_of_neg (Bool.eq_false_iff.mp stop)⟩
    rw [List.takeWhile_append_of_pos inside, List.dropWhile_append_of_pos inside, none_taken.1,
      none_taken.2, List.append_nil]
    exact ⟨rfl, rfl⟩

theorem splitQuote_iff : splitQuote s = (a, b) ↔
    s = a ++ b ∧ (a = [] ∧ (∀ c, b.head? = some c → isQuote c = false) ∨
      ∃ q, isQuote q = true ∧ a = [q]) := by
  constructor
  · intro split
    cases s with
    | nil =>
        cases split
        exact ⟨rfl, .inl ⟨rfl, fun c head => by cases head⟩⟩
    | cons c s =>
        rw [splitQuote] at split
        cases quoted : isQuote c with
        | true =>
            rw [quoted] at split
            cases split
            exact ⟨rfl, .inr ⟨c, quoted, rfl⟩⟩
        | false =>
            rw [quoted] at split
            cases split
            refine ⟨rfl, .inl ⟨rfl, fun d head => ?_⟩⟩
            cases head
            exact quoted
  · rintro ⟨rfl, ⟨rfl, stops⟩ | ⟨q, quoted, rfl⟩⟩
    · cases b with
      | nil => rfl
      | cons c b =>
          rw [List.nil_append, splitQuote, stops c rfl]
          rfl
    · rw [List.singleton_append, splitQuote, quoted]
      rfl

theorem startsWith_iff {s sub : Text} : startsWith s sub = true ↔ sub <+: s :=
  List.isPrefixOf_iff_prefix

theorem eq_slash_of_mem {c : Char} (member : c ∈ ("/" : Text)) : c = '/' :=
  List.eq_of_mem_replicate (n := 1) member

theorem eq_slash_of_mem_two {c : Char} (member : c ∈ ("//" : Text)) : c = '/' :=
  List.eq_of_mem_replicate (n := 2) member

/-- A slash and what is not one are where they were in the path. -/
theorem begins_slashes_iff {path : Text} (whole : ∀ c, rest.head? = some c → isUrlChar c = false)
    {w : Text} (slashes : ∀ c ∈ w, c = '/') : w <+: path ++ rest ↔ w <+: path := by
  refine ⟨fun begins => ?_, fun begins => begins.trans (List.prefix_append _ _)⟩
  rcases prefix_append_cases begins with inPath | ⟨tail, rfl, inRest⟩
  · exact inPath
  · cases tail with
    | nil => rw [List.append_nil]
    | cons c tail =>
        obtain rfl := slashes c (List.mem_append_right _ List.mem_cons_self)
        cases rest with
        | nil => cases List.eq_nil_of_prefix_nil inRest
        | cons d rest =>
            obtain ⟨rfl, -⟩ := List.cons_prefix_cons.mp inRest
            exact absurd (whole '/' rfl) (by decide)

/-- **What a match is.** -/
theorem readCssUrl_sound (found : readCssUrl s = some (url, rest)) :
    s = url.full ++ rest ∧ url.Fits rest := by
  unfold readCssUrl at found
  split at found
  · next starts =>
      obtain ⟨inner, rfl⟩ := startsWith_iff.mp starts
      have behind : (("url(" : Text) ++ inner).drop 4 = inner := rfl
      dsimp only at found
      rw [behind] at found
      have blank := (takeWhile_dropWhile_iff (s := inner) (p := isSpace)).mp ⟨rfl, rfl⟩
      have quoted := splitQuote_iff.mp
        (Prod.mk.eta (p := splitQuote (inner.dropWhile isSpace))).symm
      generalize (splitQuote (inner.dropWhile isSpace)).1 = quote at found quoted
      generalize (splitQuote (inner.dropWhile isSpace)).2 = target at found quoted
      have path := (takeWhile_dropWhile_iff (s := target) (p := isUrlChar)).mp ⟨rfl, rfl⟩
      split at found
      · next shape =>
          cases found
          rw [Bool.and_eq_true, Bool.not_eq_true', startsWith_iff, ← Bool.not_eq_true,
            startsWith_iff] at shape
          obtain ⟨cut, inPath, whole⟩ := path
          have slashes {w : Text} (only : ∀ c ∈ w, c = '/') :
              w <+: target.takeWhile isUrlChar ↔ w <+: target := by
            conv_rhs => rw [cut]
            exact (begins_slashes_iff whole only).symm
          have slash := (slashes fun _ => eq_slash_of_mem).mpr shape.1
          have single := fun begins => shape.2 ((slashes fun _ => eq_slash_of_mem_two).mp begins)
          refine ⟨?_, blank.2.1, quoted.2.imp And.left id, slash, single, inPath, whole⟩
          rw [CssUrl.full, List.append_assoc, List.append_assoc, List.append_assoc, ← cut,
            ← quoted.1, ← blank.1]
      · cases found
  · cases found

theorem readCssUrl_complete (fits : url.Fits rest) :
    readCssUrl (url.full ++ rest) = some (url, rest) := by
  obtain ⟨blanks, quote, path⟩ := url
  obtain ⟨isBlank, isQuoted, slash, single, inPath, whole⟩ := fits
  dsimp only at isBlank isQuoted slash single inPath
  obtain ⟨tail, rfl⟩ : ∃ tail, path = '/' :: tail := by
    obtain ⟨tail, same⟩ := slash
    exact ⟨tail, same.symm⟩
  have starts :
      startsWith (("url(" : Text) ++ (blanks ++ (quote ++ ('/' :: tail ++ rest)))) "url(" :=
    startsWith_iff.mpr (List.prefix_append _ _)
  have behind : (("url(" : Text) ++ (blanks ++ (quote ++ ('/' :: tail ++ rest)))).drop 4 =
    blanks ++ (quote ++ ('/' :: tail ++ rest)) := rfl
  have blank : (blanks ++ (quote ++ ('/' :: tail ++ rest))).takeWhile isSpace = blanks ∧
      (blanks ++ (quote ++ ('/' :: tail ++ rest))).dropWhile isSpace =
        quote ++ ('/' :: tail ++ rest) := by
    refine takeWhile_dropWhile_iff.mpr ⟨rfl, isBlank, fun c head => ?_⟩
    rcases isQuoted with rfl | ⟨q, quoted, rfl⟩
    · cases head
      decide
    · cases head
      rcases (Bool.or_eq_true _ _).mp quoted with apostrophe | double
      · rw [of_decide_eq_true apostrophe]
        decide
      · rw [of_decide_eq_true double]
        decide
  have quoted : splitQuote (quote ++ ('/' :: tail ++ rest)) = (quote, '/' :: tail ++ rest) := by
    refine splitQuote_iff.mpr ⟨rfl, isQuoted.imp_left fun empty => ⟨empty, fun c head => ?_⟩⟩
    cases head
    decide
  have ends : ('/' :: tail ++ rest).takeWhile isUrlChar = '/' :: tail ∧
      ('/' :: tail ++ rest).dropWhile isUrlChar = rest :=
    takeWhile_dropWhile_iff.mpr ⟨rfl, inPath, whole⟩
  have local_path : startsWith ('/' :: tail ++ rest) "/" &&
      !startsWith ('/' :: tail ++ rest) "//" := by
    rw [Bool.and_eq_true, Bool.not_eq_true', startsWith_iff, ← Bool.not_eq_true, startsWith_iff,
      begins_slashes_iff whole fun _ => eq_slash_of_mem,
      begins_slashes_iff whole fun _ => eq_slash_of_mem_two]
    exact ⟨List.prefix_append _ _, single⟩
  have full : CssUrl.full ⟨blanks, quote, '/' :: tail⟩ ++ rest =
      ("url(" : Text) ++ (blanks ++ (quote ++ ('/' :: tail ++ rest))) := by
    rw [CssUrl.full, List.append_assoc, List.append_assoc, List.append_assoc]
  rw [full]
  unfold readCssUrl
  rw [if_pos starts, behind]
  dsimp only
  rw [blank.1, blank.2, quoted]
  dsimp only
  rw [if_pos local_path, ends.1, ends.2]

end Reading

/-! ## The bodies -/

def cssUrl (mount : Text) : Pattern Char where
  find body := (readCssUrl body).map fun found => (cssUrlPiece mount found.1, found.2)
  reads := by
    intro body piece rest found
    obtain ⟨⟨url, rest⟩, read, same⟩ := Option.map_eq_some_iff.mp found
    cases same
    exact ⟨url.full, List.cons_ne_nil _ _, (readCssUrl_sound read).1⟩

def rewriteCssUrls (body mount : Text) : Text := (cssUrl mount).replace body

/-- The passes that only pages go through. -/
structure PagePasses where
  rewriteHtmlAttributes : Text → Text → Text
  injectImageProxy : Text → Text → Text

def rewriteEmbedBody (page : PagePasses) (body : Text) (kind : RewriteKind) (mount : Text) : Text :=
  match kind with
  | .css =>
      let out := if needsRootRewrite body then rewriteRoots body mount else body
      if includes out "url(" then rewriteCssUrls out mount else out
  | .js =>
      let out := if includes body hrefToken then rewriteJsHrefs body mount else body
      let out := if needsRootRewrite out then rewriteRoots out mount else out
      if includes out "url(" then rewriteCssUrls out mount else out
  | .html =>
      let out := page.rewriteHtmlAttributes body mount
      let out := if includes out hrefToken then rewriteJsHrefs out mount else out
      let out := if needsRootRewrite out then rewriteRoots out mount else out
      let out := if includes out "url(" then rewriteCssUrls out mount else out
      page.injectImageProxy out mount

section Rewriting

variable {id body s piece rest : Text} {mount : Text}

/-! ### The mount -/

/-- A mount is made of letters, digits, hyphens and slashes. -/
theorem notMem_mount (valid : isMountId id = true) {c : Char}
    (apart : (isIdEnd c || c = '-' || c = '/') = false) : c ∉ suiteProxyPrefix id := by
  intro member
  rw [Bool.or_eq_false_iff, Bool.or_eq_false_iff] at apart
  obtain ⟨⟨letter, hyphen⟩, slash⟩ := apart
  rcases List.mem_append.mp member with inRoot | inId
  · have root : ("/ora/" : Text).all (fun c => isIdEnd c || c = '/') = true := by decide
    have known := List.all_eq_true.mp root c inRoot
    rw [letter, slash] at known
    cases known
  · rcases isIdChar_of_mem valid inId with known | known
    · rw [letter] at known
      cases known
    · exact of_decide_eq_false hyphen known

theorem suiteAssetPath_split (mount path : Text) : ∃ bump : Text, (bump = [] ∨ bump = "/r") ∧
    suiteAssetPath mount path = mount ++ bump ++ path := by
  unfold suiteAssetPath
  split
  · exact ⟨"/r", .inr rfl, rfl⟩
  · exact ⟨[], .inl rfl, by rw [List.append_nil]⟩

/-- What comes before the path in an asset path has no character that a mount has not. -/
theorem notMem_bumped (valid : isMountId id = true) {bump : Text} (bumped : bump = [] ∨ bump = "/r")
    {c : Char} (apart : (isIdEnd c || c = '-' || c = '/') = false) :
    c ∉ suiteProxyPrefix id ++ bump := by
  intro member
  rcases List.mem_append.mp member with inMount | inBump
  · exact notMem_mount valid apart inMount
  · rcases bumped with rfl | rfl
    · cases inBump
    · have known : ("/r" : Text).all (fun c => isIdEnd c || c = '-' || c = '/') = true := by decide
      have letter := List.all_eq_true.mp known c inBump
      rw [apart] at letter
      cases letter

/-! ### Link targets -/

/-- A token of link targets does not begin in a text without colons that ends otherwise. -/
theorem hrefToken_not_begins {v y : Text} (some_text : v ≠ []) (colon : ':' ∉ v)
    (last : v.getLast some_text ∉ ("href:\"" : Text)) : ¬hrefToken <+: v ++ y := by
  intro begins
  rcases prefix_append_cases begins with inside | ⟨tail, same, -⟩
  · exact colon (inside.subset (by decide))
  · cases tail using List.reverseRecOn with
    | nil =>
        rw [List.append_nil] at same
        subst same
        exact colon (by decide)
    | append_singleton tail c =>
        rw [← List.append_assoc] at same
        have shorter := congrArg List.dropLast same
        rw [List.dropLast_concat] at shorter
        have token : hrefToken.dropLast = ("href:\"" : Text) := rfl
        rw [← token, shorter] at last
        exact last (List.mem_append_left tail (List.getLast_mem some_text))

theorem jsHref_find (mount rest : Text) : (jsHref mount).find (hrefToken ++ rest) =
    if startsWith rest "/" || startsWith rest (mount.drop 1) then some (hrefToken, rest)
    else some (("href:\"" : Text) ++ mount ++ "/", rest) := by
  have starts : startsWith (hrefToken ++ rest) hrefToken = true :=
    startsWith_iff.mpr (List.prefix_append _ _)
  unfold jsHref
  dsimp only
  rw [if_pos starts, List.drop_left]

theorem jsHref_reads (found : (jsHref mount).find s = some (piece, rest)) :
    s = hrefToken ++ rest := by
  unfold jsHref at found
  dsimp only at found
  split at found
  · next starts =>
      obtain ⟨behind, rfl⟩ := startsWith_iff.mp starts
      rw [List.drop_left] at found
      split at found
      · cases found
        rfl
      · cases found
        rfl
  · cases found

theorem jsHref_opens (id : Text) : (jsHref (suiteProxyPrefix id)).Opens hrefToken := by
  intro s piece rest found
  obtain rfl := jsHref_reads found
  refine ⟨List.prefix_append _ _, ?_⟩
  rw [jsHref_find] at found
  split at found
  · cases found
    exact List.prefix_refl _
  · cases found
    exact List.prefix_append hrefToken (("ora/" : Text) ++ id ++ "/")

/-- What a token that stays is the beginning of. -/
def hrefGuards (id : Text) : List Text :=
  [hrefToken ++ "/", hrefToken ++ (suiteProxyPrefix id).drop 1]

theorem guarded_rewriteJsHrefs (valid : isMountId id = true) (body : Text) :
    Guarded hrefToken (hrefGuards id) (rewriteJsHrefs body (suiteProxyPrefix id)) := by
  have opens := jsHref_opens id
  have long {w : Text} (short : w.length < hrefToken.length) : ¬hrefToken <:+: w :=
    fun inside => absurd inside.length_le (Nat.not_le.mpr short)
  refine Pattern.guarded_replace ?_ ?_
  · intro s _ begins
    rw [Pattern.prefix_replace_iff opens (long (by decide))] at begins
    obtain ⟨rest, rfl⟩ := begins
    have found := jsHref_find (suiteProxyPrefix id) rest
    split at found
    · next kept =>
        rw [Pattern.replace_of_some found]
        rw [Bool.or_eq_true, startsWith_iff, startsWith_iff] at kept
        rcases kept with slash | below
        · refine ⟨hrefToken ++ "/", List.mem_cons_self, (List.prefix_append_right_inj _).mpr ?_⟩
          exact (Pattern.prefix_replace_iff opens (long (by decide)) rest).mpr slash
        · refine ⟨_, List.mem_cons_of_mem _ List.mem_cons_self,
            (List.prefix_append_right_inj _).mpr ?_⟩
          have free : ¬hrefToken <:+: ((suiteProxyPrefix id).drop 1).dropLast := by
            intro inside
            have colon : ':' ∈ ((suiteProxyPrefix id).drop 1).dropLast := inside.subset (by decide)
            exact notMem_mount valid (by decide)
              (List.mem_of_mem_drop ((List.dropLast_sublist _).subset colon))
          exact (Pattern.prefix_replace_iff opens free rest).mpr below
    · rw [Pattern.replace_of_some found]
      refine ⟨_, List.mem_cons_of_mem _ List.mem_cons_self, ?_⟩
      rw [List.append_assoc]
      exact List.prefix_append (("href:\"" : Text) ++ suiteProxyPrefix id) _
  · intro s piece rest _ found v within some_v other begins
    exfalso
    obtain rfl := jsHref_reads found
    have head := head_mem_of_isPrefix some_v begins
    rw [jsHref_find] at found
    split at found
    · cases found
      have behind : v <:+ ("ref:\"/" : Text) :=
        (List.suffix_cons_iff.mp within).resolve_left other
      exact absurd (behind.subset head) (by decide)
    · cases found
      have behind : v <:+ ("ref:\"" : Text) ++ (suiteProxyPrefix id ++ "/") :=
        (List.suffix_cons_iff.mp within).resolve_left other
      have ends {w : Text} (some_w : w ≠ []) (inside : w <:+ suiteProxyPrefix id ++ "/") :
          ¬hrefToken <+: w ++ (jsHref (suiteProxyPrefix id)).replace rest := by
        refine hrefToken_not_begins some_w ?_ ?_
        · intro colon
          rcases List.mem_append.mp (inside.subset colon) with inMount | slash
          · exact notMem_mount valid (by decide) inMount
          · exact absurd slash (by decide)
        · have slash : ("/" : Text) ≠ [] := List.cons_ne_nil _ _
          rw [inside.getLast some_w, List.getLast_append_of_ne_nil _ slash]
          exact (by decide : '/' ∉ ("href:\"" : Text))
      rcases suffix_append_cases behind with inside | ⟨w, inside, rfl⟩
      · exact ends some_v inside begins
      · by_cases empty : w = []
        · subst empty
          exact ends some_v (List.suffix_refl _) begins
        · rw [List.append_assoc] at begins
          have inToken := inside.subset (head_mem_of_isPrefix empty begins)
          exact absurd inToken (by decide)

/-- Where every token stays, nothing changes. -/
theorem rewriteJsHrefs_of_guarded (guarded : Guarded hrefToken (hrefGuards id) body) :
    rewriteJsHrefs body (suiteProxyPrefix id) = body := by
  refine Pattern.replace_eq_self fun s inside piece rest found => ?_
  obtain rfl := jsHref_reads found
  obtain ⟨u, member, begins⟩ := guarded _ inside (List.prefix_append _ _)
  have kept : (startsWith rest "/" || startsWith rest ((suiteProxyPrefix id).drop 1)) = true := by
    rw [Bool.or_eq_true, startsWith_iff, startsWith_iff]
    unfold hrefGuards at member
    rcases List.mem_pair.mp member with rfl | rfl
    · exact .inl ((List.prefix_append_right_inj _).mp begins)
    · exact .inr ((List.prefix_append_right_inj _).mp begins)
  rw [jsHref_find, if_pos kept] at found
  cases found
  rfl

/-! ### Roots -/

/-- The roots have a second letter of their own, and no sign of the surrounding text. -/
def isRootShaped (root : Text) : Bool :=
  startsWith root "/" && root[1]?.any (fun c => c ≠ '/' && c ≠ 'o') &&
    root.getLast?.any (fun c => !("href:\"" : Text).contains c) &&
    root.all fun c => !isQuote c && c ≠ ':' && c ≠ '('

theorem embedRoots_shape {root : Text} (member : root ∈ embedRoots) : isRootShaped root = true := by
  have all : embedRoots.all isRootShaped = true := by decide
  exact List.all_eq_true.mp all root member

/-- What begins with a root goes on with its second letter. -/
theorem second_of_embedRoot {root y : Text} (member : root ∈ embedRoots) {c : Char}
    (begins : root <+: '/' :: c :: y) : c ≠ '/' ∧ c ≠ 'o' := by
  have shape := embedRoots_shape member
  unfold isRootShaped at shape
  rw [Bool.and_eq_true, Bool.and_eq_true, Bool.and_eq_true] at shape
  obtain ⟨d, found, apart⟩ := (Option.any_eq_true _ _).mp shape.1.1.2
  obtain ⟨tail, same⟩ := begins
  have inside := (List.getElem?_eq_some_iff.mp found).1
  have same_second : (root ++ tail)[1]? = some d := by
    rw [List.getElem?_append_left inside, found]
  rw [same] at same_second
  cases same_second
  rw [Bool.and_eq_true, decide_eq_true_eq, decide_eq_true_eq] at apart
  exact apart

theorem ne_of_mem_embedRoot {root : Text} (member : root ∈ embedRoots) {c : Char}
    (inside : c ∈ root) : isQuote c = false ∧ c ≠ ':' ∧ c ≠ '(' := by
  have shape := embedRoots_shape member
  unfold isRootShaped at shape
  rw [Bool.and_eq_true] at shape
  have plain := List.all_eq_true.mp shape.2 c inside
  rw [Bool.and_eq_true, Bool.and_eq_true, Bool.not_eq_true', decide_eq_true_eq,
    decide_eq_true_eq] at plain
  exact ⟨plain.1.1, plain.1.2, plain.2⟩

theorem embedRoot_not_begins_mount {root y : Text} (member : root ∈ embedRoots) :
    ¬root <+: suiteProxyPrefix id ++ y :=
  fun begins => (second_of_embedRoot member (y := ("ra/" : Text) ++ id ++ y) begins).2 rfl

theorem notMem_of_isQuote (valid : isMountId id = true) {q : Char} (quoted : isQuote q = true)
    {bump : Text} (bumped : bump = [] ∨ bump = "/r") : q ∉ suiteProxyPrefix id ++ bump := by
  refine notMem_bumped valid bumped ?_
  rcases (Bool.or_eq_true _ _).mp quoted with apostrophe | double
  · rw [of_decide_eq_true apostrophe]
    decide
  · rw [of_decide_eq_true double]
    decide

theorem quote_notMem_root {q : Char} (quoted : isQuote q = true) {root : Text}
    (member : root ∈ embedRoots) : q ∉ root := by
  intro inside
  rw [(ne_of_mem_embedRoot member inside).1] at quoted
  cases quoted

theorem spliceOnce_eq (body token replacement : Text) :
    spliceOnce body token replacement = (Pattern.word token replacement).replace body := by
  unfold spliceOnce
  split
  · next idle =>
      rw [Bool.or_eq_true, Bool.not_eq_true', ← Bool.not_eq_true, includes_iff,
        decide_eq_true_eq] at idle
      symm
      refine Pattern.replace_eq_self fun s inside piece rest found => ?_
      obtain ⟨rfl, rfl⟩ := Pattern.word_reads found
      rcases idle with absent | same
      · exact absurd ((List.prefix_append _ _).isInfix.trans inside.isInfix) absent
      · rw [same]
  · rfl

/-- The pass for one kind of quote and one root. -/
def quotedRoot (mount : Text) (q : Char) (root : Text) : Pattern Char :=
  Pattern.word (q :: root) (q :: suiteAssetPath mount root)

/-- What stands behind a quote after a pass stood there before, and is not its root. -/
theorem absent_quotedRoot (valid : isMountId id = true) {q r : Char} {root other : Text}
    (quoted : isQuote r = true) (known : isQuote q = true) (member : root ∈ embedRoots)
    (inRoots : other ∈ embedRoots)
    (absent : ∀ s, s <:+ body → r :: other <+: s →
      (quotedRoot (suiteProxyPrefix id) q root).find s ≠ none) :
    Guarded (r :: other) [] ((quotedRoot (suiteProxyPrefix id) q root).replace body) := by
  have opens : (quotedRoot (suiteProxyPrefix id) q root).Opens [q] :=
    Pattern.word_opens (List.prefix_append [q] root) (List.prefix_append [q] _)
  have free : ¬[q] <:+: other.dropLast := by
    intro inside
    exact quote_notMem_root known inRoots
      ((List.dropLast_sublist other).subset (inside.subset List.mem_cons_self))
  obtain ⟨bump, bumped, asset⟩ := suiteAssetPath_split (suiteProxyPrefix id) root
  refine Pattern.guarded_replace ?_ ?_
  · intro s inside begins
    exfalso
    cases s with
    | nil => cases List.eq_nil_of_prefix_nil begins
    | cons c s =>
        cases matched : (quotedRoot (suiteProxyPrefix id) q root).find (c :: s) with
        | none =>
            rw [Pattern.replace_of_none matched, List.cons_prefix_cons,
              Pattern.prefix_replace_iff opens free] at begins
            exact absent _ inside (List.cons_prefix_cons.mpr begins) matched
        | some both =>
            obtain ⟨piece, rest⟩ := both
            obtain ⟨-, rfl⟩ := Pattern.word_reads matched
            rw [Pattern.replace_of_some matched, List.cons_append, List.cons_prefix_cons, asset,
              List.append_assoc, List.append_assoc] at begins
            exact embedRoot_not_begins_mount inRoots begins.2
  · intro s piece rest inside found v within some_v apart begins
    exfalso
    obtain ⟨-, rfl⟩ := Pattern.word_reads found
    have behind : v <:+ suiteAssetPath (suiteProxyPrefix id) root :=
      (List.suffix_cons_iff.mp within).resolve_left apart
    have head := behind.subset (head_mem_of_isPrefix some_v begins)
    rw [asset] at head
    rcases List.mem_append.mp head with inMount | inRoot
    · exact notMem_of_isQuote valid quoted bumped inMount
    · exact quote_notMem_root quoted member inRoot

theorem slash_of_embedRoot {root : Text} (member : root ∈ embedRoots) : ("/" : Text) <+: root := by
  have shape := embedRoots_shape member
  unfold isRootShaped at shape
  rw [Bool.and_eq_true, Bool.and_eq_true, Bool.and_eq_true, startsWith_iff] at shape
  exact shape.1.1.1

theorem getLast_embedRoot {root : Text} (member : root ∈ embedRoots) (some_root : root ≠ []) :
    root.getLast some_root ∉ ("href:\"" : Text) := by
  have shape := embedRoots_shape member
  unfold isRootShaped at shape
  rw [Bool.and_eq_true, Bool.and_eq_true, Bool.and_eq_true, List.getLast?_eq_some_getLast some_root,
    Option.any_some, Bool.not_eq_true', List.contains_eq_mem, decide_eq_false_iff_not] at shape
  exact shape.1.2

/-- No root stands in what a token that stays is the beginning of. -/
theorem quotedRoot_of_guard (valid : isMountId id = true) {q : Char} (known : isQuote q = true)
    {root : Text} (member : root ∈ embedRoots) {u : Text} (guard : u ∈ hrefGuards id) {y v : Text}
    (within : v <:+ u) (some_v : v ≠ []) :
    (quotedRoot (suiteProxyPrefix id) q root).find (v ++ y) = none := by
  rw [Option.eq_none_iff_forall_ne_some]
  rintro ⟨piece, rest⟩ found
  obtain ⟨same, -⟩ := Pattern.word_reads found
  have begins : q :: root <+: v ++ y := ⟨rest, same.symm⟩
  obtain ⟨c, x, rfl, host, free⟩ : ∃ c x, u = ("href:" : Text) ++ ('"' :: '/' :: c :: x) ∧
      (c = '/' ∨ c = 'o') ∧ q ∉ '/' :: c :: x := by
    unfold hrefGuards at guard
    rcases List.mem_pair.mp guard with rfl | rfl
    · refine ⟨'/', [], rfl, .inl rfl, ?_⟩
      intro inside
      obtain rfl := eq_slash_of_mem_two inside
      cases known
    · refine ⟨'o', ("ra/" : Text) ++ id, rfl, .inr rfl, ?_⟩
      have apart := notMem_of_isQuote valid known (.inl rfl)
      rw [List.append_nil] at apart
      exact apart
  have inPath {w : Text} (some_w : w ≠ []) (inside : w <:+ '"' :: '/' :: c :: x) :
      ¬q :: root <+: w ++ y := by
    intro begins
    rcases List.suffix_cons_iff.mp inside with rfl | inside
    · rw [List.cons_append, List.cons_prefix_cons] at begins
      have second := second_of_embedRoot member begins.2
      rcases host with rfl | rfl
      · exact second.1 rfl
      · exact second.2 rfl
    · exact free (inside.subset (head_mem_of_isPrefix some_w begins))
  rcases suffix_append_cases within with inside | ⟨w, inside, rfl⟩
  · exact inPath some_v inside begins
  · by_cases empty : w = []
    · subst empty
      exact inPath some_v (List.suffix_refl _) begins
    · rw [List.append_assoc] at begins
      have member := inside.subset (head_mem_of_isPrefix empty begins)
      have plain : ("href:" : Text).all (fun c => !isQuote c) = true := by decide
      have other := List.all_eq_true.mp plain q member
      rw [known] at other
      cases other

/-- The tokens of link targets that stay do so behind a pass for a root. -/
theorem guarded_quotedRoot (valid : isMountId id = true) {q : Char} (known : isQuote q = true)
    {root : Text} (member : root ∈ embedRoots)
    (guarded : Guarded hrefToken (hrefGuards id) body) :
    Guarded hrefToken (hrefGuards id)
      ((quotedRoot (suiteProxyPrefix id) q root).replace body) := by
  obtain ⟨bump, bumped, asset⟩ := suiteAssetPath_split (suiteProxyPrefix id) root
  have opens : (quotedRoot (suiteProxyPrefix id) q root).Opens [q, '/'] := by
    refine Pattern.word_opens ?_ ?_
    · exact List.cons_prefix_cons.mpr ⟨rfl, slash_of_embedRoot member⟩
    · rw [asset]
      exact List.prefix_append [q, '/'] (("ora/" : Text) ++ id ++ bump ++ root)
  have free : ¬[q, '/'] <:+: hrefToken.dropLast := by
    intro inside
    have slash : '/' ∈ hrefToken.dropLast :=
      inside.subset (List.mem_cons_of_mem _ List.mem_cons_self)
    exact absurd slash (by decide)
  refine Pattern.guarded_replace ?_ ?_
  · intro s inside begins
    rw [Pattern.prefix_replace_iff opens free] at begins
    obtain ⟨u, guard, y, rfl⟩ := guarded s inside begins
    refine ⟨u, guard, ?_⟩
    rw [Pattern.replace_append_of_none fun v within some_v =>
      quotedRoot_of_guard valid known member guard within some_v]
    exact List.prefix_append _ _
  · intro s piece rest inside found v within some_v apart begins
    exfalso
    obtain ⟨-, rfl⟩ := Pattern.word_reads found
    have behind : v <:+ suiteAssetPath (suiteProxyPrefix id) root :=
      (List.suffix_cons_iff.mp within).resolve_left apart
    rw [asset] at behind
    have some_root : root ≠ [] := by
      rintro rfl
      cases List.eq_nil_of_prefix_nil (slash_of_embedRoot member)
    refine hrefToken_not_begins some_v ?_ ?_ begins
    · intro colon
      rcases List.mem_append.mp (behind.subset colon) with inMount | inRoot
      · exact notMem_bumped valid bumped (by decide) inMount
      · exact (ne_of_mem_embedRoot member inRoot).2.1 rfl
    · rw [behind.getLast some_v, List.getLast_append_of_ne_nil _ some_root]
      exact getLast_embedRoot member some_root

section Roots

variable (valid : isMountId id = true) {q r : Char} {root other : Text}
  (quoted : isQuote r = true) (known : isQuote q = true) (member : root ∈ embedRoots)
  (inRoots : other ∈ embedRoots)

include valid known member

theorem absent_own :
    Guarded (q :: root) [] ((quotedRoot (suiteProxyPrefix id) q root).replace body) := by
  refine absent_quotedRoot valid known known member member fun s _ begins => ?_
  obtain ⟨rest, rfl⟩ := begins
  unfold quotedRoot
  rw [Pattern.word_find (List.cons_ne_nil q root)]
  exact Option.some_ne_none _

include quoted inRoots in
theorem absent_kept (absent : Guarded (r :: other) [] body) :
    Guarded (r :: other) [] ((quotedRoot (suiteProxyPrefix id) q root).replace body) := by
  refine absent_quotedRoot valid quoted known member inRoots fun s inside begins => ?_
  obtain ⟨u, none_member, -⟩ := absent s inside begins
  cases none_member

end Roots

/-- A round is a pass for each kind of quote. -/
theorem rewriteRoot_eq (valid : isMountId id = true) {root : Text} (member : root ∈ embedRoots)
    (body : Text) : rewriteRoot (suiteProxyPrefix id) body root =
      (quotedRoot (suiteProxyPrefix id) '\'' root).replace
        ((quotedRoot (suiteProxyPrefix id) '"' root).replace body) := by
  have absent : Guarded ('"' :: root) [] ((quotedRoot (suiteProxyPrefix id) '\'' root).replace
      ((quotedRoot (suiteProxyPrefix id) '"' root).replace body)) :=
    absent_kept valid rfl rfl member member (absent_own valid rfl member)
  have idle : includes
      ((quotedRoot (suiteProxyPrefix id) '\'' root).replace
        ((quotedRoot (suiteProxyPrefix id) '"' root).replace body))
      ('\\' :: '"' :: root) = false := by
    rw [← Bool.not_eq_true, includes_iff]
    intro inside
    exact guarded_nil_iff.mp absent ((List.suffix_cons _ _).isInfix.trans inside)
  unfold rewriteRoot
  dsimp only
  rw [spliceOnce_eq _ ('"' :: root), spliceOnce_eq _ ('\'' :: root)]
  unfold quotedRoot at idle ⊢
  rw [spliceOnce, idle]
  rfl

/-- What a property of bodies is kept by. -/
theorem rewriteRoots_induction {motive : Text → Prop} (valid : isMountId id = true)
    (step : ∀ q root body, isQuote q = true → root ∈ embedRoots → motive body →
      motive ((quotedRoot (suiteProxyPrefix id) q root).replace body))
    {roots : List Text} (known : ∀ root ∈ roots, root ∈ embedRoots) (start : motive body) :
    motive (roots.foldl (rewriteRoot (suiteProxyPrefix id)) body) := by
  induction roots generalizing body with
  | nil => exact start
  | cons root roots ih =>
      have member := known root List.mem_cons_self
      refine ih (fun other inside => known other (List.mem_cons_of_mem root inside)) ?_
      rw [rewriteRoot_eq valid member]
      exact step _ root _ rfl member (step _ root body rfl member start)

/-- A text in which no root stands behind a quote. -/
def NoRoots (body : Text) : Prop :=
  ∀ root ∈ embedRoots, ∀ q, isQuote q = true → Guarded (q :: root) [] body

theorem rewriteRoots_noRoots (valid : isMountId id = true) (body : Text) :
    NoRoots (rewriteRoots body (suiteProxyPrefix id)) := by
  have keep {root : Text} (member : root ∈ embedRoots) {q : Char} (quoted : isQuote q = true) :
      ∀ r other body, isQuote r = true → other ∈ embedRoots → Guarded (q :: root) [] body →
        Guarded (q :: root) [] ((quotedRoot (suiteProxyPrefix id) r other).replace body) :=
    fun r other body known inRoots => absent_kept valid quoted known inRoots member
  have run : ∀ roots : List Text, (∀ root ∈ roots, root ∈ embedRoots) → ∀ body,
      ∀ root ∈ roots, ∀ q, isQuote q = true →
        Guarded (q :: root) [] (roots.foldl (rewriteRoot (suiteProxyPrefix id)) body) := by
    intro roots
    induction roots with
    | nil => exact fun _ body root inside => by cases inside
    | cons first roots ih =>
        intro known body root inside q quoted
        have later : ∀ root ∈ roots, root ∈ embedRoots :=
          fun other among => known other (List.mem_cons_of_mem first among)
        rcases List.mem_cons.mp inside with rfl | inside
        · have member := known root List.mem_cons_self
          rw [List.foldl_cons]
          refine rewriteRoots_induction valid (keep member quoted) later ?_
          rw [rewriteRoot_eq valid member]
          rcases (Bool.or_eq_true _ _).mp quoted with apostrophe | double
          · obtain rfl := of_decide_eq_true apostrophe
            exact absent_own valid rfl member
          · obtain rfl := of_decide_eq_true double
            exact absent_kept valid rfl rfl member member (absent_own valid rfl member)
        · exact ih later _ root inside q quoted
  exact fun root member q quoted => run embedRoots (fun _ among => among) body root member q quoted

theorem guarded_rewriteRoots (valid : isMountId id = true)
    (guarded : Guarded hrefToken (hrefGuards id) body) :
    Guarded hrefToken (hrefGuards id) (rewriteRoots body (suiteProxyPrefix id)) :=
  rewriteRoots_induction valid
    (fun _ _ _ quoted member kept => guarded_quotedRoot valid quoted member kept)
    (fun _ among => among) guarded

theorem needsRootRewrite_of_noRoots (absent : NoRoots body) : needsRootRewrite body = false := by
  unfold needsRootRewrite
  rw [List.any_eq_false]
  intro root member
  have free {q : Char} (quoted : isQuote q = true) : ¬q :: root <:+: body :=
    guarded_nil_iff.mp (absent root member q quoted)
  rw [Bool.or_eq_true, Bool.or_eq_true, includes_iff, includes_iff, includes_iff]
  rintro ((double | single) | escaped)
  · exact free rfl double
  · exact free rfl single
  · exact free rfl ((List.suffix_cons _ _).isInfix.trans escaped)

/-- Without a root, the rounds change nothing. -/
theorem rewriteRoots_of_idle (idle : needsRootRewrite body = false) (mount : Text) :
    rewriteRoots body mount = body := by
  have each : ∀ root ∈ embedRoots, rewriteRoot mount body root = body := by
    intro root member
    have none_found := List.any_eq_false.mp idle root member
    rw [Bool.or_eq_true, Bool.or_eq_true, not_or, not_or, Bool.not_eq_true, Bool.not_eq_true,
      Bool.not_eq_true] at none_found
    obtain ⟨⟨double, single⟩, escaped⟩ := none_found
    have kept {token replacement : Text} (absent : includes body token = false) :
        spliceOnce body token replacement = body := by
      rw [spliceOnce, absent]
      rfl
    unfold rewriteRoot
    dsimp only
    rw [kept double, kept single, kept escaped]
  have run : ∀ roots : List Text, (∀ root ∈ roots, rewriteRoot mount body root = body) →
      roots.foldl (rewriteRoot mount) body = body := by
    intro roots
    induction roots with
    | nil => exact fun _ => rfl
    | cons root roots ih =>
        intro kept
        rw [List.foldl_cons, kept root List.mem_cons_self]
        exact ih fun other inside => kept other (List.mem_cons_of_mem root inside)
  exact run embedRoots each

/-! ### Addresses of style sheets -/

theorem cssUrl_reads (found : (cssUrl mount).find s = some (piece, rest)) :
    ∃ url, readCssUrl s = some (url, rest) ∧ piece = cssUrlPiece mount url := by
  obtain ⟨⟨url, behind⟩, read, same⟩ := Option.map_eq_some_iff.mp found
  cases same
  exact ⟨url, read, rfl⟩

theorem cssUrl_opens (mount : Text) : (cssUrl mount).Opens "url(" := by
  intro s piece rest found
  obtain ⟨url, read, rfl⟩ := cssUrl_reads found
  obtain ⟨rfl, -⟩ := readCssUrl_sound read
  refine ⟨List.prefix_append ("url(" : Text) (url.blanks ++ url.quote ++ url.path ++ rest), ?_⟩
  unfold cssUrlPiece
  split
  · exact List.prefix_append ("url(" : Text) (url.blanks ++ url.quote ++ url.path)
  · rw [List.append_assoc]
    exact List.prefix_append _ _

theorem css_free {w : Text} (paren : '(' ∉ w) : ¬("url(" : Text) <:+: w.dropLast :=
  fun inside => paren ((List.dropLast_sublist w).subset (inside.subset (by decide)))

/-- A place inside a piece is one of the list, or one before the path. -/
theorem cssUrl_inside {url : CssUrl} (read : readCssUrl s = some (url, rest)) {v : Text}
    (within : v <:+ cssUrlPiece mount url) (some_v : v ≠ []) :
    v ++ rest <:+ s ∨ ∃ bump w : Text, (bump = [] ∨ bump = "/r") ∧ w ≠ [] ∧
      w <:+ ("url(" : Text) ++ url.quote ++ (mount ++ bump) ∧ v = w ++ url.path := by
  obtain ⟨rfl, -⟩ := readCssUrl_sound read
  have inFull (inside : v <:+ url.full) : v ++ rest <:+ url.full ++ rest := by
    obtain ⟨front, same⟩ := inside
    rw [← same, List.append_assoc]
    exact List.suffix_append _ _
  unfold cssUrlPiece at within
  split at within
  · exact .inl (inFull within)
  · obtain ⟨bump, bumped, asset⟩ := suiteAssetPath_split mount url.path
    rw [asset, ← List.append_assoc] at within
    rcases suffix_append_cases within with inPath | ⟨w, inside, rfl⟩
    · exact .inl (inFull (inPath.trans (List.suffix_append _ _)))
    · by_cases empty : w = []
      · subst empty
        exact .inl (inFull (List.suffix_append _ _))
      · exact .inr ⟨bump, w, bumped, empty, inside, rfl⟩

/-- What stands in a text stands in it behind the pass, if it has no opening and does not
begin before a path. -/
theorem guarded_cssUrl {t : Text} {us : List Text} (paren : '(' ∉ t)
    (parens : ∀ u ∈ us, '(' ∉ u)
    (apart : ∀ (url : CssUrl) (rest bump w y : Text), url.Fits rest → bump = [] ∨ bump = "/r" →
      w ≠ [] → w <:+ ("url(" : Text) ++ url.quote ++ (mount ++ bump) →
        ¬t <+: w ++ url.path ++ y)
    (guarded : Guarded t us body) : Guarded t us ((cssUrl mount).replace body) := by
  have opens := cssUrl_opens mount
  refine Pattern.guarded_replace ?_ ?_
  · intro s inside begins
    rw [Pattern.prefix_replace_iff opens (css_free paren)] at begins
    obtain ⟨u, member, stands⟩ := guarded s inside begins
    exact ⟨u, member, (Pattern.prefix_replace_iff opens (css_free (parens u member)) s).mpr stands⟩
  · intro s piece rest inside found v within some_v _ begins
    obtain ⟨url, read, rfl⟩ := cssUrl_reads found
    rcases cssUrl_inside read within some_v with behind | ⟨bump, w, bumped, some_w, front, rfl⟩
    · rw [Pattern.prefix_append_replace_iff opens (css_free paren)] at begins
      obtain ⟨u, member, stands⟩ := guarded _ (behind.trans inside) begins
      exact ⟨u, member,
        (Pattern.prefix_append_replace_iff opens (css_free (parens u member)) _ _).mpr stands⟩
    · have fits := (readCssUrl_sound read).2
      exact absurd begins (apart url rest bump w _ fits bumped some_w front)

theorem noRoots_rewriteCssUrls (valid : isMountId id = true) (absent : NoRoots body) :
    NoRoots (rewriteCssUrls body (suiteProxyPrefix id)) := by
  intro root member q quoted
  refine guarded_cssUrl ?_ (fun u none_member => by cases none_member) ?_
    (absent root member q quoted)
  · intro paren
    rcases List.mem_cons.mp paren with rfl | paren
    · cases quoted
    · exact (ne_of_mem_embedRoot member paren).2.2 rfl
  · intro url rest bump w y fits bumped some_w front begins
    have begins_w := begins
    rw [List.append_assoc] at begins_w
    -- the token's quote is the one of the address, and the mount follows it
    have inMount {v : Text} (some_v : v ≠ []) (inside : v <:+ suiteProxyPrefix id ++ bump) {z} :
        ¬q :: root <+: v ++ z := fun stands =>
      notMem_of_isQuote valid quoted bumped (inside.subset (head_mem_of_isPrefix some_v stands))
    have inQuote {v : Text} (some_v : v ≠ []) (inside : v <:+ url.quote) {z} :
        ¬q :: root <+: v ++ (suiteProxyPrefix id ++ bump ++ z) := by
      intro stands
      rcases fits.quote with empty | ⟨r, -, single⟩
      · rw [empty, List.suffix_nil] at inside
        exact some_v inside
      · rw [single, List.suffix_cons_iff, List.suffix_nil] at inside
        obtain rfl := inside.resolve_right some_v
        rw [List.singleton_append, List.cons_prefix_cons, List.append_assoc] at stands
        exact embedRoot_not_begins_mount member stands.2
    rcases suffix_append_cases front with inside | ⟨v, inside, rfl⟩
    · exact inMount some_w inside begins_w
    · rw [List.append_assoc] at begins_w
      by_cases empty : v = []
      · subst empty
        rw [List.nil_append] at begins_w some_w
        exact inMount some_w (List.suffix_refl _) begins_w
      · rcases suffix_append_cases inside with atQuote | ⟨u, before, rfl⟩
        · exact inQuote empty atQuote begins_w
        · by_cases none_left : u = []
          · subst none_left
            rw [List.nil_append] at begins_w empty
            exact inQuote empty (List.suffix_refl _) begins_w
          · rw [List.append_assoc u] at begins_w
            have inUrl := before.subset (head_mem_of_isPrefix none_left begins_w)
            have plain : ("url(" : Text).all (fun c => !isQuote c) = true := by decide
            have other := List.all_eq_true.mp plain q inUrl
            rw [quoted] at other
            cases other

theorem guarded_rewriteCssUrls (valid : isMountId id = true)
    (guarded : Guarded hrefToken (hrefGuards id) body) :
    Guarded hrefToken (hrefGuards id) (rewriteCssUrls body (suiteProxyPrefix id)) := by
  refine guarded_cssUrl (by decide) ?_ ?_ guarded
  · intro u member paren
    unfold hrefGuards at member
    rcases List.mem_pair.mp member with rfl | rfl
    · exact absurd paren (by decide)
    · rcases List.mem_append.mp paren with inToken | inMount
      · exact absurd inToken (by decide)
      · exact notMem_mount valid (by decide) (List.mem_of_mem_drop inMount)
  · intro url rest bump w y fits bumped some_w front
    obtain ⟨tail, path⟩ := fits.slash
    have along : w ++ url.path ++ y = (w ++ ("/" : Text)) ++ (tail ++ y) := by
      rw [← path]
      simp only [List.append_assoc]
    have some_front : w ++ ("/" : Text) ≠ [] := List.append_ne_nil_of_left_ne_nil some_w _
    rw [along]
    refine hrefToken_not_begins some_front ?_ ?_
    · intro colon
      rcases List.mem_append.mp colon with inFront | inSlash
      · rcases List.mem_append.mp (front.subset inFront) with inUrl | inMount
        · rcases List.mem_append.mp inUrl with inUrl | inQuote
          · exact absurd inUrl (by decide)
          · rcases fits.quote with empty | ⟨q, quoted, single⟩
            · rw [empty] at inQuote
              cases inQuote
            · rw [single, List.mem_singleton] at inQuote
              subst inQuote
              cases quoted
        · exact notMem_bumped valid bumped (by decide) inMount
      · exact absurd inSlash (by decide)
    · have slash : ("/" : Text) ≠ [] := List.cons_ne_nil _ _
      rw [List.getLast_append_of_ne_nil _ slash]
      exact (by decide : '/' ∉ ("href:\"" : Text))

/-- Where a match begins, in terms of what is copied. -/
theorem readCssUrl_isSome_iff : (readCssUrl s).isSome = true ↔ ∃ blanks quote : Text,
    (∀ c ∈ blanks, isSpace c = true) ∧ (quote = [] ∨ ∃ q, isQuote q = true ∧ quote = [q]) ∧
      ("url(" : Text) ++ blanks ++ quote ++ ("/" : Text) <+: s ∧
        ¬("url(" : Text) ++ blanks ++ quote ++ ("//" : Text) <+: s := by
  constructor
  · intro found
    obtain ⟨⟨url, rest⟩, read⟩ := Option.isSome_iff_exists.mp found
    obtain ⟨rfl, fits⟩ := readCssUrl_sound read
    refine ⟨url.blanks, url.quote, fits.blanks, fits.quote, ?_, ?_⟩
    · unfold CssUrl.full
      rw [List.append_assoc _ url.path]
      exact (List.prefix_append_right_inj _).mpr (fits.slash.trans (List.prefix_append _ _))
    · unfold CssUrl.full
      rw [List.append_assoc _ url.path, List.prefix_append_right_inj,
        begins_slashes_iff fits.whole fun _ => eq_slash_of_mem_two]
      exact fits.single
  · rintro ⟨blanks, quote, isBlank, isQuoted, ⟨behind, rfl⟩, single⟩
    have cut := (takeWhile_dropWhile_iff (s := ("/" : Text) ++ behind) (p := isUrlChar)).mp
      ⟨rfl, rfl⟩
    generalize tail_eq : (("/" : Text) ++ behind).takeWhile isUrlChar = path at cut
    generalize (("/" : Text) ++ behind).dropWhile isUrlChar = rest at cut
    obtain ⟨parts, inPath, whole⟩ := cut
    have slash : ("/" : Text) <+: path := by
      rw [← begins_slashes_iff whole fun _ => eq_slash_of_mem, ← parts]
      exact List.prefix_append _ _
    rw [List.append_assoc _ ("/" : Text), List.prefix_append_right_inj, parts,
      begins_slashes_iff whole fun _ => eq_slash_of_mem_two] at single
    have fits : CssUrl.Fits ⟨blanks, quote, path⟩ rest :=
      ⟨isBlank, isQuoted, slash, single, inPath, whole⟩
    have along : ("url(" : Text) ++ blanks ++ quote ++ "/" ++ behind =
        CssUrl.full ⟨blanks, quote, path⟩ ++ rest := by
      rw [List.append_assoc _ ("/" : Text), parts, ← List.append_assoc, CssUrl.full]
    rw [along, readCssUrl_complete fits]
    rfl

/-- A pass makes no new match in what it copies. -/
theorem cssUrl_copied {c : Char} (plain : (cssUrl mount).find (c :: s) = none) :
    (cssUrl mount).find (c :: (cssUrl mount).replace s) = none := by
  have no_match : ¬(readCssUrl (c :: s)).isSome = true := by
    rw [Bool.not_eq_true, Option.isSome_eq_false_iff, Option.isNone_iff_eq_none]
    exact Option.map_eq_none_iff.mp plain
  have still : ¬(readCssUrl (c :: (cssUrl mount).replace s)).isSome = true := by
    intro found
    refine no_match ?_
    rw [readCssUrl_isSome_iff] at found ⊢
    obtain ⟨blanks, quote, isBlank, isQuoted, slash, single⟩ := found
    -- an opening has no second `u`
    have same (tail : Text) (free : 'u' ∉ tail) :
        ("url(" : Text) ++ blanks ++ quote ++ tail <+: c :: (cssUrl mount).replace s ↔
          ("url(" : Text) ++ blanks ++ quote ++ tail <+: c :: s := by
      have parts : ("url(" : Text) ++ blanks ++ quote ++ tail =
        'u' :: (("rl(" : Text) ++ blanks ++ quote ++ tail) := rfl
      have once : ¬("url(" : Text) <:+: (("rl(" : Text) ++ blanks ++ quote ++ tail).dropLast := by
        intro inside
        have member : 'u' ∈ ("rl(" : Text) ++ blanks ++ quote ++ tail :=
          (List.dropLast_sublist _).subset (inside.subset (by decide))
        rcases List.mem_append.mp member with member | inTail
        · rcases List.mem_append.mp member with member | inQuote
          · rcases List.mem_append.mp member with inUrl | inBlanks
            · exact absurd inUrl (by decide)
            · exact absurd (isBlank 'u' inBlanks) (by decide)
          · rcases isQuoted with rfl | ⟨q, quoted, rfl⟩
            · cases inQuote
            · rw [List.mem_singleton] at inQuote
              subst inQuote
              cases quoted
        · exact free inTail
      rw [parts, List.cons_prefix_cons, List.cons_prefix_cons,
        Pattern.prefix_replace_iff (cssUrl_opens mount) once]
    exact ⟨blanks, quote, isBlank, isQuoted, (same "/" (by decide)).mp slash,
      fun double => single ((same "//" (by decide)).mpr double)⟩
  rw [Bool.not_eq_true, Option.isSome_eq_false_iff, Option.isNone_iff_eq_none] at still
  exact Option.map_eq_none_iff.mpr still

/-- What stands for an address is an address that stays. -/
theorem cssUrlPiece_kept (valid : isMountId id = true) {url : CssUrl} {behind : Text}
    (fits : url.Fits rest) (whole : ∀ c, behind.head? = some c → isUrlChar c = false) :
    (cssUrl (suiteProxyPrefix id)).find (cssUrlPiece (suiteProxyPrefix id) url ++ behind) =
      some (cssUrlPiece (suiteProxyPrefix id) url, behind) := by
  have stays {url : CssUrl} (fits : url.Fits behind)
      (kept : (url.path = suiteProxyPrefix id ||
        startsWith url.path (suiteProxyPrefix id ++ "/")) = true) :
      (cssUrl (suiteProxyPrefix id)).find (url.full ++ behind) = some (url.full, behind) := by
    have piece : cssUrlPiece (suiteProxyPrefix id) url = url.full := if_pos kept
    unfold cssUrl
    dsimp only
    rw [readCssUrl_complete fits, Option.map_some, piece]
  cases kept : (url.path = suiteProxyPrefix id ||
      startsWith url.path (suiteProxyPrefix id ++ "/") : Bool) with
  | true =>
      have piece : cssUrlPiece (suiteProxyPrefix id) url = url.full := if_pos kept
      rw [piece]
      exact stays ⟨fits.blanks, fits.quote, fits.slash, fits.single, fits.path, whole⟩ kept
  | false =>
      obtain ⟨bump, bumped, asset⟩ := suiteAssetPath_split (suiteProxyPrefix id) url.path
      have piece : cssUrlPiece (suiteProxyPrefix id) url =
          CssUrl.full ⟨[], url.quote, suiteAssetPath (suiteProxyPrefix id) url.path⟩ := by
        have changed : ¬(url.path = suiteProxyPrefix id ||
            startsWith url.path (suiteProxyPrefix id ++ "/")) = true := by
          rw [kept]
          exact Bool.false_ne_true
        unfold cssUrlPiece CssUrl.full
        rw [if_neg changed, List.append_nil]
      obtain ⟨tail, path⟩ := fits.slash
      rw [piece]
      have no_blanks : ∀ c ∈ ([] : Text), isSpace c = true := fun c inside => by cases inside
      refine stays ⟨no_blanks, fits.quote, ?_, ?_, ?_, whole⟩ ?_
      · dsimp only
        rw [asset]
        exact List.prefix_append ("/" : Text) (("ora/" : Text) ++ id ++ bump ++ url.path)
      · dsimp only
        rw [asset]
        intro double
        have second := (List.cons_prefix_cons.mp (List.cons_prefix_cons.mp double).2).1
        cases second
      · dsimp only
        rw [asset]
        intro c member
        rcases List.mem_append.mp member with inMount | inPath
        · by_contra stop
          unfold isUrlChar at stop
          rw [Bool.not_eq_true', Bool.not_eq_false, Bool.or_eq_true, decide_eq_true_eq] at stop
          rcases stop with rfl | quoted
          · exact notMem_bumped valid bumped (by decide) inMount
          · exact notMem_of_isQuote valid quoted bumped inMount
        · exact fits.path c inPath
      · dsimp only
        rw [asset, Bool.or_eq_true, startsWith_iff, ← path, List.append_assoc,
          List.prefix_append_right_inj]
        right
        rcases bumped with rfl | rfl
        · exact List.prefix_append _ _
        · exact List.prefix_append ("/" : Text) (("r" : Text) ++ ("/" ++ tail))

theorem rewriteCssUrls_twice (valid : isMountId id = true) (body : Text) :
    rewriteCssUrls (rewriteCssUrls body (suiteProxyPrefix id)) (suiteProxyPrefix id) =
      rewriteCssUrls body (suiteProxyPrefix id) := by
  unfold rewriteCssUrls
  induction body using Pattern.replace_induction (p := cssUrl (suiteProxyPrefix id)) with
  | nil => rfl
  | plain c s plain ih =>
      rw [Pattern.replace_of_none plain, Pattern.replace_of_none (cssUrl_copied plain), ih]
  | found s piece rest found ih =>
      obtain ⟨url, read, rfl⟩ := cssUrl_reads found
      have fits := (readCssUrl_sound read).2
      have whole : ∀ c, ((cssUrl (suiteProxyPrefix id)).replace rest).head? = some c →
          isUrlChar c = false := by
        intro c head
        obtain ⟨tail, same⟩ := List.head?_eq_some_iff.mp head
        have begins : [c] <+: (cssUrl (suiteProxyPrefix id)).replace rest := ⟨tail, same.symm⟩
        have free : ¬("url(" : Text) <:+: [c].dropLast := fun inside => by
          cases inside.length_le
        rw [Pattern.prefix_replace_iff (cssUrl_opens _) free] at begins
        obtain ⟨behind, rfl⟩ := begins
        exact fits.whole c rfl
      rw [Pattern.replace_of_some found,
        Pattern.replace_of_some (cssUrlPiece_kept valid fits whole), ih]

/-! ### Whole bodies -/

theorem rewriteJsHrefs_of_absent (absent : includes body hrefToken = false) (mount : Text) :
    rewriteJsHrefs body mount = body := by
  rw [← Bool.not_eq_true, includes_iff] at absent
  refine Pattern.replace_eq_self fun s inside piece rest found => absurd ?_ absent
  obtain rfl := jsHref_reads found
  exact (List.prefix_append _ _).isInfix.trans inside.isInfix

theorem rewriteCssUrls_of_absent (absent : includes body "url(" = false) (mount : Text) :
    rewriteCssUrls body mount = body := by
  rw [← Bool.not_eq_true, includes_iff] at absent
  exact Pattern.replace_of_absent (cssUrl_opens mount) absent

/-- The tests before the passes only save work. -/
theorem rewriteEmbedBody_css (page : PagePasses) (body mount : Text) :
    rewriteEmbedBody page body .css mount = rewriteCssUrls (rewriteRoots body mount) mount := by
  have roots : (if needsRootRewrite body then rewriteRoots body mount else body) =
      rewriteRoots body mount := by
    split
    · rfl
    · next idle => exact (rewriteRoots_of_idle (Bool.eq_false_iff.mpr idle) mount).symm
  unfold rewriteEmbedBody
  dsimp only
  rw [roots]
  split
  · rfl
  · next absent => exact (rewriteCssUrls_of_absent (Bool.eq_false_iff.mpr absent) mount).symm

theorem rewriteEmbedBody_js (page : PagePasses) (body mount : Text) :
    rewriteEmbedBody page body .js mount =
      rewriteCssUrls (rewriteRoots (rewriteJsHrefs body mount) mount) mount := by
  have hrefs : (if includes body hrefToken then rewriteJsHrefs body mount else body) =
      rewriteJsHrefs body mount := by
    split
    · rfl
    · next absent => exact (rewriteJsHrefs_of_absent (Bool.eq_false_iff.mpr absent) mount).symm
  rw [← rewriteEmbedBody_css page]
  unfold rewriteEmbedBody
  dsimp only
  rw [hrefs]

/-- A rewritten body is left alone by the passes for roots and addresses. -/
theorem rewriteRoots_rewriteCssUrls (valid : isMountId id = true) (body : Text) :
    rewriteCssUrls (rewriteRoots (rewriteCssUrls (rewriteRoots body (suiteProxyPrefix id))
        (suiteProxyPrefix id)) (suiteProxyPrefix id)) (suiteProxyPrefix id) =
      rewriteCssUrls (rewriteRoots body (suiteProxyPrefix id)) (suiteProxyPrefix id) := by
  have absent := noRoots_rewriteCssUrls valid (rewriteRoots_noRoots valid body)
  rw [rewriteRoots_of_idle (needsRootRewrite_of_noRoots absent), rewriteCssUrls_twice valid]

/-- **A style sheet or script that is rewritten twice is rewritten once.** -/
theorem rewriteEmbedBody_twice (page : PagePasses) {kind : RewriteKind} (asset : kind ≠ .html)
    (valid : isMountId id = true) (body : Text) :
    rewriteEmbedBody page (rewriteEmbedBody page body kind (suiteProxyPrefix id)) kind
        (suiteProxyPrefix id) =
      rewriteEmbedBody page body kind (suiteProxyPrefix id) := by
  cases kind with
  | html => exact absurd rfl asset
  | css =>
      rw [rewriteEmbedBody_css, rewriteEmbedBody_css]
      exact rewriteRoots_rewriteCssUrls valid body
  | js =>
      rw [rewriteEmbedBody_js, rewriteEmbedBody_js]
      have guarded := guarded_rewriteCssUrls valid
        (guarded_rewriteRoots valid (guarded_rewriteJsHrefs valid body))
      rw [rewriteJsHrefs_of_guarded guarded]
      exact rewriteRoots_rewriteCssUrls valid _

theorem rewriteEmbedBody_twice_dockora :
    let page : PagePasses := ⟨fun body _ => body, fun body _ => body⟩
    let body : Text := "n=\x7bhref:\"/list\"\x7d;b=url( /x.png)"
    rewriteEmbedBody page (rewriteEmbedBody page body .js (suiteProxyPrefix "dockora")) .js
        (suiteProxyPrefix "dockora") =
      rewriteEmbedBody page body .js (suiteProxyPrefix "dockora") :=
  rewriteEmbedBody_twice _ RewriteKind.noConfusion (by decide) _

example : rewriteEmbedBody ⟨fun body _ => body, fun body _ => body⟩
    "n=\x7bhref:\"/list\"\x7d;a=\"/api/v1\";b=url( /x.png)" .js (suiteProxyPrefix "dockora") =
      "n=\x7bhref:\"/ora/dockora/list\"\x7d;a=\"/ora/dockora/api/v1\";b=url(/ora/dockora/x.png)" := by
  decide

end Rewriting

end Proxora
