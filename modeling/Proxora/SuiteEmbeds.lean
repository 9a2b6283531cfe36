import Mathlib.Data.List.Perm.Subperm
import Proxora.Ecma.Json
import Proxora.FederationAccess
import Proxora.Loops
import Proxora.Rewriting
import Proxora.SuitePaths

/-!
# The list of embedded apps

`lib/suite-embeds.ts`: the list that a request sends is checked, and each app without an id gets
one made of its name; what is stored is read again, and what is not well formed is left out.

`suiteApps_law` says that a list that is accepted has an own mount for each of its apps, that an id
is always found, and that the list is read as it was written.
-/

namespace Proxora

open Ecma Loops

/-! ## Definitions -/

/-- What is used of a `URL`; the last part is its text once the hash is empty. -/
structure AppAddress where
  protocol : Text
  username : Text
  password : Text
  withoutHash : Text
deriving DecidableEq, Repr

/-- `SuiteApp`; `insecureTls` is a property only where it is true. -/
structure SuiteApp where
  id : Text
  name : Text
  url : Text
  insecureTls : Bool
deriving DecidableEq, Repr

/-- `SuiteEmbeds`. -/
structure SuiteEmbeds where
  apps : List SuiteApp
deriving DecidableEq, Repr

/-- `MAX_APPS`. -/
def maxApps : Nat := 24

/-- The value as JSON. -/
def SuiteApp.json {N : Type} (app : SuiteApp) : Json Text N :=
  let members : List (Text × Json Text N) :=
    [("id", .str app.id), ("name", .str app.name), ("url", .str app.url)]
  .obj (if app.insecureTls then members ++ [(("insecureTls" : Text), Json.bool true)] else members)

def SuiteEmbeds.json {N : Type} (embeds : SuiteEmbeds) : Json Text N :=
  .obj [("apps", .arr (embeds.apps.map SuiteApp.json))]

/-- A property of a value from outside. -/
def appField {N : Type} (value : Json Text N) (name : Text) : Option (Json Text N) :=
  value.member name

/-- `flag === true`. -/
def isJsonTrue {N : Type} : Option (Json Text N) → Bool
  | some (.bool b) => b
  | _ => false

def withInsecureTls {N : Type} (app : SuiteApp) (flag : Option (Json Text N)) : SuiteApp :=
  if isJsonTrue flag && startsWith app.url "https:" then { app with insecureTls := true } else app

/-- `s.slice(0, stop)`. -/
def sliceTo (s : Text) (stop : Int) : Text :=
  if 0 ≤ stop then s.take stop.toNat else s.take (s.length - (-stop).toNat)

/-- `/[^a-z0-9]+/`, with a hyphen in its place. -/
def hyphens : Pattern Char where
  find s :=
    if s.takeWhile (!isIdEnd ·) = [] then none else some ("-", s.dropWhile (!isIdEnd ·))
  reads := by
    intro s piece rest found
    split at found
    · cases found
    · next some_run =>
        cases found
        exact ⟨_, some_run, List.takeWhile_append_dropWhile.symm⟩

section

variable {N : Type} (parseUrl : Text → Option AppAddress) (normalize : Text → Text)

def safeUrl : Option (Json Text N) → Option Text
  | some (.str text) =>
      if trim text = [] then none
      else
        match parseUrl (trim text) with
        | none => none
        | some url =>
            if url.protocol ≠ "http:" && url.protocol ≠ "https:" then none
            else if url.username ≠ [] || url.password ≠ [] then none
            else some url.withoutHash
  | _ => none

def legacyApp (id name : Text) (url : Option (Json Text N)) : Option SuiteApp :=
  (safeUrl parseUrl url).map fun safe => ⟨id, name, safe, false⟩

def storedApp (value : Json Text N) : Option SuiteApp :=
  if !value.isObject then none
  else
    match appField value "id", appField value "name", safeUrl parseUrl (appField value "url") with
    | some (.str id), some (.str name), some url =>
        if !isMountId id || trim name = [] then none
        else some (withInsecureTls ⟨id, trim name, url, false⟩ (appField value "insecureTls"))
    | _, _, _ => none

/-- The loop of `readSuiteEmbeds`. -/
def storedApps (seen : List Text) : List (Json Text N) → List SuiteApp
  | [] => []
  | item :: items =>
      match storedApp parseUrl item with
      | none => storedApps seen items
      | some app =>
          if seen.contains app.id then storedApps seen items
          else app :: storedApps (app.id :: seen) items

def readSuiteEmbeds (value : Json Text N) : SuiteEmbeds :=
  if !value.isObject then ⟨[]⟩
  else
    match appField value "apps" with
    | some (.arr items) => ⟨storedApps parseUrl [] items⟩
    | _ =>
        ⟨[legacyApp parseUrl "dockora" "Dockora" (appField value "dockora"),
          legacyApp parseUrl "sambora" "Sambora" (appField value "sambora")].filterMap id⟩

/-- A mark that is dropped, of `[\u0300-\u036f]`. -/
def isCombining (c : Char) : Bool := 0x300 ≤ c.toNat && c.toNat ≤ 0x36f

/-- `base` of `suiteAppId`; `normalize` is `normalize("NFKD")`. -/
def appIdBase (name : Text) : Text :=
  let plain := toLowerCase ((normalize name).filter (!isCombining ·))
  let joined := (hyphens.replace plain).dropWhile (· = '-')
  ((joined.rdropWhile (· = '-')).take 40).rdropWhile (· = '-')

/-- `root` of `suiteAppId`. -/
def appIdRoot (name : Text) : Text :=
  if appIdBase normalize name = [] then "app" else appIdBase normalize name

/-- The id with a number. -/
def numberedId (root : Text) (n : Nat) : Text :=
  let suffix := '-' :: (toString n : String).toList
  sliceTo root (40 - suffix.length) ++ suffix

/-- The loop of `suiteAppId`, over `id` and `n`. -/
def nextAppId (taken : List Text) (root : Text) : Text × Nat → (Text × Nat) ⊕ Text
  | (id, n) =>
      if taken.contains id || !isMountId id then .inl (numberedId root n, n + 1) else .inr id

def suiteAppId (fuel : Nat) (name : Text) (taken : List Text) : Option Text :=
  let root := appIdRoot normalize name
  run (nextAppId taken root) fuel (root, 2)

def parseEmbedUrl : Option (Json Text N) → Except AppError (Option Text)
  | none | some .null => .ok none
  | some (.str text) =>
      if trim text = [] then .ok none
      else
        match parseUrl (trim text) with
        | none => .error (validationError "Address must be an http or https URL")
        | some url =>
            if url.protocol ≠ "http:" && url.protocol ≠ "https:" then
              .error (validationError "Address must be an http or https URL")
            else if url.username ≠ [] || url.password ≠ [] then
              .error (validationError "Address must not contain a password")
            else .ok (some url.withoutHash)
  | some _ => .error (validationError "Address must be a URL")

/-- `typeof value === "string" ? value.trim() : ""`. -/
def trimmedText : Option (Json Text N) → Text
  | some (.str text) => trim text
  | _ => []

/-- What the loop of `parseSuiteApps` makes of a row; a blank one is passed over. There is nothing
where the fuel for an id is used up. -/
def parseApp (fuel : Nat) (taken : List Text) (item : Json Text N) :
    Option (Except AppError (Option SuiteApp)) :=
  if !item.isObject then
    some (.error (validationError "Each app needs a name and an address"))
  else
    let name := trimmedText (appField item "name")
    let urlText := trimmedText (appField item "url")
    if name = [] && urlText = [] then some (.ok none)
    else if name = [] || 48 < utf16Length name then
      some (.error (validationError "Each app needs a name"))
    else
      match parseEmbedUrl parseUrl (some (.str urlText) : Option (Json Text N)) with
      | .error e => some (.error e)
      | .ok none => some (.error (validationError "Each app needs an address"))
      | .ok (some url) =>
          let given := toLowerCase (trimmedText (appField item "id"))
          if given ≠ [] && (!isMountId given || taken.contains given) then
            some (.error (validationError "Each app needs its own name"))
          else
            let id := if given ≠ [] then some given else suiteAppId normalize fuel name taken
            id.map fun id =>
              .ok (some (withInsecureTls ⟨id, name, url, false⟩ (appField item "insecureTls")))

/-- The loop of `parseSuiteApps`. -/
def parseApps (fuel : Nat) (taken : List Text) :
    List (Json Text N) → Option (Except AppError (List SuiteApp))
  | [] => some (.ok [])
  | item :: items =>
      match parseApp parseUrl normalize fuel taken item with
      | none => none
      | some (.error e) => some (.error e)
      | some (.ok none) => parseApps fuel taken items
      | some (.ok (some app)) =>
          (parseApps fuel (app.id :: taken) items).map fun result => result.map (app :: ·)

def parseSuiteApps (fuel : Nat) : Json Text N → Option (Except AppError (List SuiteApp))
  | .arr items =>
      if maxApps < items.length then some (.error (validationError "Too many apps"))
      else parseApps parseUrl normalize fuel [] items
  | _ => some (.error (validationError "Apps must be a list"))

end

example : suiteAppId id 9 "  Sambora: Files " ["sambora-files"] =
    some ("sambora-files-2" : Text) := by
  decide

/-! ## Ids -/

section Ids

variable {root : Text} {taken : List Text} {n m : Nat}

theorem mem_replace_hyphens (s : Text) : ∀ c ∈ hyphens.replace s, isIdEnd c = true ∨ c = '-' := by
  induction s using Pattern.replace_induction (p := hyphens) with
  | nil => exact fun c member => by cases member
  | plain d s plain ih =>
      rw [Pattern.replace_of_none plain]
      intro c member
      rcases List.mem_cons.mp member with rfl | member
      · by_contra apart
        rw [not_or, Bool.not_eq_true] at apart
        have run : (c :: s).takeWhile (!isIdEnd ·) ≠ [] := by
          rw [List.takeWhile_cons_of_pos (by rw [apart.1]; rfl)]
          exact List.cons_ne_nil _ _
        unfold hyphens at plain
        dsimp only at plain
        rw [if_neg run] at plain
        cases plain
      · exact ih c member
  | found s piece rest found ih =>
      rw [Pattern.replace_of_some found]
      intro c member
      unfold hyphens at found
      dsimp only at found
      split at found
      · cases found
      · cases found
        rcases List.mem_cons.mp member with rfl | member
        · exact .inr rfl
        · exact ih c member

/-- Made of letters, digits and hyphens, with hyphens only inside. -/
theorem isMountId_of_parts (letters : ∀ c ∈ root, isIdEnd c = true ∨ c = '-')
    (first : ∀ c, root.head? = some c → c ≠ '-') (last : ∀ c, root.getLast? = some c → c ≠ '-')
    (short : root.length ≤ 40) (some_root : root ≠ []) : isMountId root = true := by
  have ends {c : Char} (member : c ∈ root) (apart : c ≠ '-') : isIdEnd c = true :=
    (letters c member).resolve_right apart
  have head := List.head?_eq_some_head some_root
  have foot := List.getLast?_eq_some_getLast some_root
  unfold isMountId
  rw [head, foot, Option.any_some, Option.any_some, ends (List.head_mem _) (first _ head),
    ends (List.getLast_mem _) (last _ foot), decide_eq_true short, Bool.true_and, Bool.true_and,
    Bool.true_and, List.all_eq_true]
  intro c member
  rw [Bool.or_eq_true, decide_eq_true_eq]
  exact letters c member

/-- The root of an id is an id itself. -/
theorem isMountId_appIdRoot (normalize : Text → Text) (name : Text) :
    isMountId (appIdRoot normalize name) = true := by
  unfold appIdRoot
  split
  · decide
  · next some_base =>
      unfold appIdBase at some_base ⊢
      dsimp only at some_base ⊢
      generalize toLowerCase ((normalize name).filter (!isCombining ·)) = plain at *
      have letters := mem_replace_hyphens plain
      generalize hyphens.replace plain = joined at *
      generalize front_eq : joined.dropWhile (· = '-') = front at *
      have begins : ((front.rdropWhile (· = '-')).take 40).rdropWhile (· = '-') <+: front :=
        (List.rdropWhile_prefix _ _).trans
          ((List.take_prefix _ _).trans (List.rdropWhile_prefix _ _))
      refine isMountId_of_parts ?_ ?_ ?_ ?_ some_base
      · intro c member
        have inFront := begins.subset member
        rw [← front_eq] at inFront
        exact letters c ((List.dropWhile_sublist _).subset inFront)
      · intro c head
        obtain ⟨tail, same⟩ := begins
        have front_head : front.head? = some c := by
          rw [← same, List.head?_append, head]
          rfl
        have stops := List.head?_dropWhile_not (fun d : Char => decide (d = '-')) joined
        rw [front_eq, front_head] at stops
        exact of_decide_eq_false stops
      · intro c foot
        have stops := List.rdropWhile_last_not (fun d : Char => decide (d = '-')) _ some_base
        rw [List.getLast?_eq_some_getLast some_base, Option.some_inj] at foot
        rw [foot, decide_eq_true_eq] at stops
        exact stops
      · exact (List.rdropWhile_prefix _ _).length_le.trans (List.length_take_le _ _)

/-- The numbers that the loop comes to are short. -/
theorem length_numeral_le (small : n < 2 ^ 53) : (toString n : String).toList.length ≤ 16 := by
  rw [Nat.toString_eq_ofList_toDigits, String.toList_ofList,
    Nat.length_toDigits_le_iff (by decide) (by decide)]
  omega

theorem numberedId_eq (root : Text) (small : n < 2 ^ 53) :
    numberedId root n = root.take (39 - (toString n : String).toList.length) ++
      '-' :: (toString n : String).toList := by
  have short := length_numeral_le small
  have stop : (40 : Int) - (('-' :: (toString n : String).toList : Text).length : Nat) =
      (39 - (toString n : String).toList.length : Nat) := by
    rw [List.length_cons]
    omega
  unfold numberedId sliceTo
  dsimp only
  rw [stop, if_pos (Int.natCast_nonneg _), Int.toNat_natCast]

theorem isMountId_numberedId (valid : isMountId root = true) (small : n < 2 ^ 53) :
    isMountId (numberedId root n) = true := by
  have short := length_numeral_le small
  obtain ⟨c, rest, rfl⟩ : ∃ c rest, root = c :: rest := by
    cases root with
    | nil => cases valid
    | cons c rest => exact ⟨c, rest, rfl⟩
  have first : isIdEnd c = true := by
    unfold isMountId at valid
    rw [Bool.and_eq_true, Bool.and_eq_true, Bool.and_eq_true] at valid
    exact valid.1.1.1
  have digit : ∀ d ∈ (toString n : String).toList, isIdEnd d = true := fun d member => by
    rw [isIdEnd, digits_toString d member, Bool.or_true]
  have some_digits : (toString n : String).toList ≠ [] := by
    rw [Nat.toString_eq_ofList_toDigits, String.toList_ofList]
    exact List.ne_nil_of_length_pos Nat.length_toDigits_pos
  rw [numberedId_eq _ small]
  obtain ⟨k, enough⟩ : ∃ k, 39 - (toString n : String).toList.length = k + 1 :=
    ⟨38 - (toString n : String).toList.length, by omega⟩
  rw [enough, List.take_succ_cons]
  refine isMountId_of_parts ?_ ?_ ?_ ?_ (List.cons_ne_nil _ _)
  · intro d member
    rcases List.mem_append.mp member with inRoot | inSuffix
    · have inFull : d ∈ c :: rest := by
        rcases List.mem_cons.mp inRoot with rfl | inTail
        · exact List.mem_cons_self
        · exact List.mem_cons_of_mem _ (List.mem_of_mem_take inTail)
      exact isIdChar_of_mem valid inFull
    · rcases List.mem_cons.mp inSuffix with rfl | inDigits
      · exact .inr rfl
      · exact .inl (digit d inDigits)
  · intro d head
    cases head
    rintro rfl
    cases first
  · intro d foot
    rw [List.cons_append, ← List.cons_append,
      List.getLast?_append_of_ne_nil _ (List.cons_ne_nil _ _),
      List.getLast?_cons_of_ne_nil some_digits, List.getLast?_eq_some_getLast some_digits] at foot
    cases foot
    intro same
    have known := digit _ (List.getLast_mem some_digits)
    rw [same] at known
    cases known
  · rw [List.length_append, List.length_cons, List.length_cons, List.length_take]
    omega

/-- Ids with different numbers are different. -/
theorem numberedId_inj (small : n < 2 ^ 53) (other : m < 2 ^ 53)
    (same : numberedId root n = numberedId root m) : n = m := by
  have free (k : Nat) : ∀ c ∈ (toString k : String).toList.reverse, decide (c ≠ '-') = true := by
    intro c member
    have digit := digits_toString c (List.mem_reverse.mp member)
    rw [decide_eq_true_eq]
    rintro rfl
    cases digit
  have behind (x : Text) (k : Nat) :
      (x ++ '-' :: (toString k : String).toList).reverse.takeWhile (fun c => decide (c ≠ '-')) =
        (toString k : String).toList.reverse := by
    rw [List.reverse_append, List.reverse_cons, List.append_assoc,
      List.takeWhile_append_of_pos (free k)]
    exact List.append_nil _
  rw [numberedId_eq root small, numberedId_eq root other] at same
  have digits := behind (root.take (39 - (toString n : String).toList.length)) n
  rw [same, behind] at digits
  exact (toString_nat_inj (List.reverse_inj.mp digits)).symm

/-- The ids that the loop comes to. -/
def triedId (root : Text) : Nat → Text
  | 0 => root
  | k + 1 => numberedId root (k + 2)

/-- Some id that the loop comes to is not taken. -/
theorem exists_free_id (root : Text) (few : taken.length + 3 < 2 ^ 53) :
    ∃ k, k ≤ taken.length + 1 ∧ triedId root k ∉ taken := by
  by_contra all_taken
  push Not at all_taken
  have distinct : ((List.range (taken.length + 1)).map fun k => numberedId root (k + 2)).Nodup := by
    refine List.Nodup.map_on ?_ List.nodup_range
    intro i inside j among same
    rw [List.mem_range] at inside among
    have numbers := numberedId_inj (by omega) (by omega) same
    omega
  have inTaken :
      ((List.range (taken.length + 1)).map fun k => numberedId root (k + 2)) ⊆ taken := by
    intro id member
    obtain ⟨k, inside, rfl⟩ := List.mem_map.mp member
    rw [List.mem_range] at inside
    exact all_taken (k + 1) (by omega)
  have long := (List.subperm_of_subset distinct inTaken).length_le
  rw [List.length_map, List.length_range] at long
  omega

/-- **An id is found.** -/
theorem suiteAppId_leaves (normalize : Text → Text) (name : Text)
    (few : taken.length + 3 < 2 ^ 53) :
    ∃ id, isMountId id = true ∧ id ∉ taken ∧ ∀ fuel, taken.length + 2 ≤ fuel →
      suiteAppId normalize fuel name taken = some id := by
  have valid := isMountId_appIdRoot normalize name
  generalize root_eq : appIdRoot normalize name = root at valid
  have free := exists_free_id root few
  obtain ⟨within, unused⟩ := Nat.find_spec free
  have earlier {i : Nat} (before : i < Nat.find free) : triedId root i ∈ taken := by
    by_contra apart
    exact Nat.find_min free before ⟨by omega, apart⟩
  have fits {i : Nat} (inside : i ≤ Nat.find free) : isMountId (triedId root i) = true := by
    cases i with
    | zero => exact valid
    | succ i => exact isMountId_numberedId valid (by omega)
  refine ⟨triedId root (Nat.find free), fits (Nat.le_refl _), unused, fun fuel enough => ?_⟩
  unfold suiteAppId
  dsimp only
  rw [root_eq]
  refine run_of_trace (fun i => (triedId root i, i + 2)) (n := Nat.find free) ?_ ?_ (by omega)
  · intro i before
    unfold nextAppId
    dsimp only
    rw [List.contains_iff_mem.mpr (earlier before), Bool.true_or, if_pos rfl]
    rfl
  · unfold nextAppId
    dsimp only
    rw [List.contains_eq_mem, decide_eq_false unused, fits (Nat.le_refl _)]
    rfl

end Ids

/-! ## What is read again -/

section Law

variable {N : Type} {parseUrl : Text → Option AppAddress} {normalize : Text → Text}
  {taken seen : List Text} {apps : List SuiteApp} {app : SuiteApp} {item : Json Text N} {fuel : Nat}

/-- `http:` or `https:`. -/
def AppAddress.IsWeb (url : AppAddress) : Prop := url.protocol = "http:" ∨ url.protocol = "https:"

/-- The text of an address that is read is read as the same address: it begins with its protocol,
and has no white space around it. -/
structure Serialises (parseUrl : Text → Option AppAddress) : Prop where
  again : ∀ {text url}, parseUrl text = some url → url.IsWeb → parseUrl url.withoutHash = some url
  begins : ∀ {text url}, parseUrl text = some url → url.IsWeb → url.protocol <+: url.withoutHash
  trimmed : ∀ {text url}, parseUrl text = some url → url.IsWeb →
    trim url.withoutHash = url.withoutHash

/-- A text that stands for an address as it is stored. -/
def IsStoredUrl (parseUrl : Text → Option AppAddress) (text : Text) : Prop :=
  trim text = text ∧ text ≠ [] ∧ ∃ url, parseUrl text = some url ∧ url.IsWeb ∧
    url.username = [] ∧ url.password = [] ∧ url.withoutHash = text

/-- An app that is well formed. -/
structure SuiteApp.Sound (parseUrl : Text → Option AppAddress) (app : SuiteApp) : Prop where
  id : isMountId app.id = true
  trimmed : trim app.name = app.name
  named : app.name ≠ []
  url : IsStoredUrl parseUrl app.url
  tls : app.insecureTls = true → startsWith app.url "https:" = true

theorem isWeb_iff {url : AppAddress} :
    ¬(url.protocol ≠ "http:" && url.protocol ≠ "https:") = true ↔ url.IsWeb := by
  unfold AppAddress.IsWeb
  rw [Bool.and_eq_true, decide_eq_true_eq, decide_eq_true_eq]
  tauto

theorem noCredentials_iff {url : AppAddress} :
    ¬(url.username ≠ [] || url.password ≠ []) = true ↔ url.username = [] ∧ url.password = [] := by
  rw [Bool.or_eq_true, decide_eq_true_eq, decide_eq_true_eq]
  tauto

theorem parseEmbedUrl_sound (serialises : Serialises parseUrl) {value : Option (Json Text N)}
    {text : Text} (parsed : parseEmbedUrl parseUrl value = .ok (some text)) :
    IsStoredUrl parseUrl text := by
  unfold parseEmbedUrl at parsed
  split at parsed
  · cases parsed
  · cases parsed
  · split at parsed
    · cases parsed
    · split at parsed
      · cases parsed
      · next url read =>
          split at parsed
          · cases parsed
          · next web =>
              rw [isWeb_iff] at web
              split at parsed
              · cases parsed
              · next plain =>
                  rw [noCredentials_iff] at plain
                  cases parsed
                  refine ⟨serialises.trimmed read web, ?_, url, serialises.again read web, web,
                    plain.1, plain.2, rfl⟩
                  intro empty
                  have begins := serialises.begins read web
                  rw [empty, List.prefix_nil] at begins
                  rcases web with http | https
                  · rw [begins] at http
                    cases http
                  · rw [begins] at https
                    cases https
  · cases parsed

theorem safeUrl_stored {text : Text} (stored : IsStoredUrl parseUrl text) :
    safeUrl parseUrl (some (.str text) : Option (Json Text N)) = some text := by
  obtain ⟨trimmed, some_text, url, read, web, username, password, same⟩ := stored
  unfold safeUrl
  dsimp only
  rw [trimmed, if_neg some_text, read]
  dsimp only
  rw [if_neg (isWeb_iff.mpr web), if_neg (noCredentials_iff.mpr ⟨username, password⟩), same]

theorem withInsecureTls_parts (app : SuiteApp) (flag : Option (Json Text N)) :
    (withInsecureTls app flag).id = app.id ∧ (withInsecureTls app flag).name = app.name ∧
      (withInsecureTls app flag).url = app.url := by
  unfold withInsecureTls
  split
  · exact ⟨rfl, rfl, rfl⟩
  · exact ⟨rfl, rfl, rfl⟩

theorem withInsecureTls_sound (sound : app.Sound parseUrl) (flag : Option (Json Text N)) :
    (withInsecureTls app flag).Sound parseUrl := by
  obtain ⟨id, name, url⟩ := withInsecureTls_parts app flag
  refine ⟨id ▸ sound.id, name ▸ sound.trimmed, name ▸ sound.named, url ▸ sound.url, ?_⟩
  intro flagged
  unfold withInsecureTls at flagged ⊢
  split at flagged
  · next both =>
      rw [if_pos both]
      exact (Bool.and_eq_true _ _ ▸ both).2
  · next other =>
      rw [if_neg other]
      exact sound.tls flagged

/-- An app that is made of a row. -/
theorem parseApp_sound (serialises : Serialises parseUrl) (few : taken.length + 3 < 2 ^ 53)
    (enough : taken.length + 2 ≤ fuel)
    (parsed : parseApp parseUrl normalize fuel taken item = some (.ok (some app))) :
    app.Sound parseUrl ∧ app.id ∉ taken := by
  unfold parseApp at parsed
  split at parsed
  · cases parsed
  · dsimp only at parsed
    split at parsed
    · cases parsed
    · split at parsed
      · cases parsed
      · next named =>
          rw [Bool.or_eq_true, not_or, decide_eq_true_eq] at named
          split at parsed
          · cases parsed
          · cases parsed
          · next url address =>
              have stored := parseEmbedUrl_sound serialises address
              split at parsed
              · cases parsed
              · next own =>
                  obtain ⟨id, found, same⟩ := Option.map_eq_some_iff.mp parsed
                  have made : isMountId id = true ∧ id ∉ taken := by
                    split at found
                    · next given =>
                        cases found
                        rw [Bool.and_eq_true, Bool.or_eq_true, Bool.not_eq_true',
                          List.contains_iff_mem, decide_eq_true_eq, not_and, not_or,
                          Bool.not_eq_false] at own
                        exact own given
                    · obtain ⟨free, valid, unused, leaves⟩ :=
                        suiteAppId_leaves normalize (trimmedText (appField item "name")) few
                      rw [leaves fuel enough] at found
                      cases found
                      exact ⟨valid, unused⟩
                  cases same
                  have trimmed : trim (trimmedText (appField item "name")) =
                      trimmedText (appField item "name") := by
                    unfold trimmedText
                    split
                    · exact trim_trim _
                    · rfl
                  refine ⟨withInsecureTls_sound
                    ⟨made.1, trimmed, named.1, stored, Bool.noConfusion⟩ _, ?_⟩
                  rw [(withInsecureTls_parts _ _).1]
                  exact made.2

variable (parseUrl normalize) in
/-- A row is refused, passed over or made an app. -/
theorem parseApp_leaves (few : taken.length + 3 < 2 ^ 53) (enough : taken.length + 2 ≤ fuel)
    (item : Json Text N) : ∃ result, parseApp parseUrl normalize fuel taken item = some result := by
  unfold parseApp
  split
  · exact ⟨_, rfl⟩
  · dsimp only
    split
    · exact ⟨_, rfl⟩
    · split
      · exact ⟨_, rfl⟩
      · split
        · exact ⟨_, rfl⟩
        · exact ⟨_, rfl⟩
        · split
          · exact ⟨_, rfl⟩
          · split
            · exact ⟨_, rfl⟩
            · obtain ⟨id, -, -, leaves⟩ :=
                suiteAppId_leaves normalize (trimmedText (appField item "name")) few
              rw [leaves fuel enough]
              exact ⟨_, rfl⟩

/-- A list of apps that are well formed, with ids that are their own and not among others. -/
structure SoundApps (parseUrl : Text → Option AppAddress) (seen : List Text)
    (apps : List SuiteApp) : Prop where
  sound : ∀ app ∈ apps, app.Sound parseUrl
  unseen : ∀ app ∈ apps, app.id ∉ seen
  distinct : (apps.map SuiteApp.id).Nodup

theorem SoundApps.nil : SoundApps parseUrl seen [] where
  sound _ inside := by cases inside
  unseen _ inside := by cases inside
  distinct := List.nodup_nil

theorem SoundApps.cons (sound : app.Sound parseUrl) (unused : app.id ∉ seen)
    (later : SoundApps parseUrl (app.id :: seen) apps) : SoundApps parseUrl seen (app :: apps) where
  sound other inside := by
    rcases List.mem_cons.mp inside with rfl | inside
    · exact sound
    · exact later.sound other inside
  unseen other inside := by
    rcases List.mem_cons.mp inside with rfl | inside
    · exact unused
    · exact fun among => later.unseen other inside (List.mem_cons_of_mem _ among)
  distinct := by
    rw [List.map_cons, List.nodup_cons]
    refine ⟨fun again => ?_, later.distinct⟩
    obtain ⟨other, inside, same⟩ := List.mem_map.mp again
    exact later.unseen other inside (same ▸ List.mem_cons_self)

theorem SoundApps.of_cons (all : SoundApps parseUrl seen (app :: apps)) :
    app.Sound parseUrl ∧ app.id ∉ seen ∧ SoundApps parseUrl (app.id :: seen) apps := by
  have distinct := all.distinct
  rw [List.map_cons, List.nodup_cons] at distinct
  refine ⟨all.sound app List.mem_cons_self, all.unseen app List.mem_cons_self,
    fun other inside => all.sound other (List.mem_cons_of_mem _ inside), ?_, distinct.2⟩
  intro other inside among
  rcases List.mem_cons.mp among with same | among
  · exact distinct.1 (same ▸ List.mem_map_of_mem inside)
  · exact all.unseen other (List.mem_cons_of_mem _ inside) among

variable (normalize) in
/-- What the rows of a list are made. -/
theorem parseApps_law (serialises : Serialises parseUrl) {items : List (Json Text N)}
    (few : taken.length + items.length + 3 < 2 ^ 53)
    (enough : taken.length + items.length + 2 ≤ fuel) :
    (∃ error, parseApps parseUrl normalize fuel taken items = some (.error error)) ∨
      ∃ apps, parseApps parseUrl normalize fuel taken items = some (.ok apps) ∧
        apps.length ≤ items.length ∧ SoundApps parseUrl taken apps := by
  induction items generalizing taken with
  | nil => exact .inr ⟨[], rfl, Nat.le_refl _, .nil⟩
  | cons item items ih =>
      rw [List.length_cons] at few enough
      have few_now : taken.length + 3 < 2 ^ 53 := by omega
      have enough_now : taken.length + 2 ≤ fuel := by omega
      obtain ⟨result, parsed⟩ := parseApp_leaves parseUrl normalize few_now enough_now item
      unfold parseApps
      rw [parsed]
      match result, parsed with
      | .error e, _ => exact .inl ⟨e, rfl⟩
      | .ok none, _ =>
          dsimp only
          rcases @ih taken (by omega) (by omega) with refused | ⟨apps, same, short, sound⟩
          · exact .inl refused
          · exact .inr ⟨apps, same, short.trans (Nat.le_succ _), sound⟩
      | .ok (some app), parsed =>
          dsimp only
          have made := parseApp_sound serialises few_now enough_now parsed
          have few_later : (app.id :: taken).length + items.length + 3 < 2 ^ 53 := by
            rw [List.length_cons]
            omega
          have enough_later : (app.id :: taken).length + items.length + 2 ≤ fuel := by
            rw [List.length_cons]
            omega
          rcases ih few_later enough_later with ⟨error, refused⟩ | ⟨apps, same, short, sound⟩
          · rw [refused]
            exact .inl ⟨error, rfl⟩
          · rw [same]
            refine .inr ⟨app :: apps, rfl, ?_, .cons made.1 made.2 sound⟩
            rw [List.length_cons, List.length_cons]
            omega

/-- The properties that are written are there again. -/
theorem appField_json (app : SuiteApp) :
    appField (app.json : Json Text N) "id" = some (.str app.id) ∧
      appField (app.json : Json Text N) "name" = some (.str app.name) ∧
      appField (app.json : Json Text N) "url" = some (.str app.url) ∧
      isJsonTrue (appField (app.json : Json Text N) "insecureTls") = app.insecureTls := by
  obtain ⟨id, name, url, insecureTls⟩ := app
  cases insecureTls with
  | true => exact ⟨rfl, rfl, rfl, rfl⟩
  | false => exact ⟨rfl, rfl, rfl, rfl⟩

theorem storedApp_json (sound : app.Sound parseUrl) :
    storedApp parseUrl (app.json : Json Text N) = some app := by
  obtain ⟨id, name, url, flag⟩ := appField_json (N := N) app
  have object : (app.json : Json Text N).isObject = true := rfl
  have kept : ¬(!isMountId app.id || trim app.name = []) = true := by
    rw [sound.id, sound.trimmed, Bool.not_true, Bool.false_or, decide_eq_true_eq]
    exact sound.named
  unfold storedApp
  rw [object, Bool.not_true, if_neg Bool.false_ne_true, id, name, url, safeUrl_stored sound.url]
  dsimp only
  rw [if_neg kept, sound.trimmed, withInsecureTls, flag]
  obtain ⟨appId, appName, appUrl, insecureTls⟩ := app
  cases insecureTls with
  | false => rfl
  | true =>
      have https : startsWith appUrl "https:" = true := sound.tls rfl
      dsimp only
      rw [https]
      rfl

theorem storedApps_json (all : SoundApps parseUrl seen apps) :
    storedApps parseUrl seen (apps.map (SuiteApp.json (N := N))) = apps := by
  induction apps generalizing seen with
  | nil => rfl
  | cons app apps ih =>
      obtain ⟨sound, unused, later⟩ := all.of_cons
      rw [List.map_cons, storedApps, storedApp_json sound]
      dsimp only
      rw [List.contains_eq_mem, decide_eq_false unused, if_neg Bool.false_ne_true, ih later]

theorem readSuiteEmbeds_json (all : SoundApps parseUrl [] apps) :
    readSuiteEmbeds parseUrl (SuiteEmbeds.json ⟨apps⟩ : Json Text N) = ⟨apps⟩ := by
  have listed : appField (SuiteEmbeds.json ⟨apps⟩ : Json Text N) "apps" =
    some (.arr (apps.map SuiteApp.json)) := rfl
  have object : (SuiteEmbeds.json ⟨apps⟩ : Json Text N).isObject = true := rfl
  unfold readSuiteEmbeds
  rw [object, Bool.not_true, if_neg Bool.false_ne_true, listed]
  dsimp only
  rw [storedApps_json all]

/-- A list that is accepted: each app has a mount of its own, and the list is read again as it
was written. -/
structure AcceptedApps (N : Type) (parseUrl : Text → Option AppAddress)
    (apps : List SuiteApp) : Prop where
  few : apps.length ≤ maxApps
  distinct : (apps.map SuiteApp.id).Nodup
  mounts : ∀ app ∈ apps, isMountId app.id = true
  read_again : readSuiteEmbeds parseUrl (SuiteEmbeds.json ⟨apps⟩ : Json Text N) = ⟨apps⟩

/-- **The list of embedded apps**: every list is refused or accepted, and an id is found whatever
ids are taken, as long as the numbers that are tried are exact. -/
theorem suiteApps_law (serialises : Serialises parseUrl) (normalize : Text → Text) :
    (∀ (value : Json Text N) (fuel : Nat), maxApps + 2 ≤ fuel →
      (∃ error, parseSuiteApps parseUrl normalize fuel value = some (.error error)) ∨
        ∃ apps, parseSuiteApps parseUrl normalize fuel value = some (.ok apps) ∧
          AcceptedApps N parseUrl apps) ∧
    ∀ (name : Text) (taken : List Text), taken.length + 3 < 2 ^ 53 →
      ∃ id, isMountId id = true ∧ id ∉ taken ∧ ∀ fuel, taken.length + 2 ≤ fuel →
        suiteAppId normalize fuel name taken = some id := by
  refine ⟨fun value fuel enough => ?_, fun name taken few => suiteAppId_leaves normalize name few⟩
  unfold parseSuiteApps
  split
  · next items =>
      split
      · exact .inl ⟨_, rfl⟩
      · next few =>
          rw [Nat.not_lt] at few
          have small : ([] : List Text).length + items.length + 3 < 2 ^ 53 := by
            unfold maxApps at few
            rw [List.length_nil]
            omega
          have fueled : ([] : List Text).length + items.length + 2 ≤ fuel := by
            rw [List.length_nil]
            omega
          rcases parseApps_law normalize serialises small fueled with
            refused | ⟨apps, same, short, all⟩
          · exact .inl refused
          · exact .inr ⟨apps, same, short.trans few, all.distinct,
              fun app inside => (all.sound app inside).id, readSuiteEmbeds_json all⟩
  · exact .inl ⟨_, rfl⟩

/-- A parser of one address. -/
def lanAddress (text : Text) : Option AppAddress :=
  if text = "https://d.lan" ∨ text = "https://d.lan/" then
    some ⟨"https:", [], [], "https://d.lan/"⟩
  else none

theorem serialises_lanAddress : Serialises lanAddress := by
  have only {text : Text} {url : AppAddress} (read : lanAddress text = some url) :
      url = ⟨"https:", [], [], "https://d.lan/"⟩ := by
    unfold lanAddress at read
    split at read
    · cases read
      rfl
    · cases read
  refine ⟨fun read _ => ?_, fun read _ => ?_, fun read _ => ?_⟩
  · rw [only read]
    rfl
  · rw [only read]
    decide
  · rw [only read]
    decide

theorem suiteApps_law_dockora :
    let value : Json Text Nat :=
      .arr [.obj [("name", .str "Dockora"), ("url", .str "https://d.lan")]]
    parseSuiteApps lanAddress id 26 value =
        some (.ok [⟨"dockora", "Dockora", "https://d.lan/", false⟩]) ∧
      AcceptedApps Nat lanAddress [⟨"dockora", "Dockora", "https://d.lan/", false⟩] := by
  intro value
  have made : parseSuiteApps lanAddress id 26 value =
      some (.ok [⟨"dockora", "Dockora", "https://d.lan/", false⟩]) := by
    rfl
  have law := (suiteApps_law serialises_lanAddress id).1 value 26 (Nat.le_refl _)
  rcases law with ⟨error, refused⟩ | ⟨apps, accepted, all⟩
  · rw [made] at refused
    cases refused
  · rw [made] at accepted
    cases accepted
    exact ⟨made, all⟩

end Law

end Proxora
