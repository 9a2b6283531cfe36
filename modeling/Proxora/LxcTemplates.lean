import Proxora.Ecma.Maps
import Proxora.SuitePaths
import Proxora.TemplateVersions
import Proxora.VolumeUsage

/-!
# Container templates

`mergeTemplateCatalog` and `groupTemplatePackages` of `lib/lxc-templates.ts`. The installed files
are merged into the catalog by their names in lower case, and the entries are grouped by package and
architecture.

A volume is found in one row unless another one with the same name comes after it:
`templatesKept_iff` says that nothing is lost exactly if all names differ.
-/

namespace Proxora

open Ecma

/-! ## Templates -/

/-- `AplTemplate`; `sectionName` is `section`. -/
structure AplTemplate where
  template : Text
  package : Text
  version : Text
  sectionName : Text
  headline : Text
  type : Text
  os : Text
  architecture : Text
deriving DecidableEq, Repr

structure CatalogTemplate extends AplTemplate where
  installed : Bool
  volid : Option Text
deriving DecidableEq, Repr

structure TemplatePackageRow where
  key : Text
  package : Text
  headline : Text
  sectionName : Text
  architecture : Text
  installedVersion : Text
  installedTemplate : Text
  installedVolids : List Text
  latestVersion : Text
  latestTemplate : Text
  updateAvailable : Bool
deriving DecidableEq, Repr

/-- `a || b`. -/
def firstGiven (a b : Text) : Text := if a = [] then b else a

/-- What `ARCHIVE_RE`, `/\.(tar\.(gz|xz|zst|bz2)|tgz)$/i`, matches. -/
def archiveSuffixes : List Text := [".tar.gz", ".tar.xz", ".tar.zst", ".tar.bz2", ".tgz"]

/-- `name.replace(ARCHIVE_RE, "")`. -/
def withoutArchive (name : Text) : Text :=
  match archiveSuffixes.find? fun suffix => endsWith (name.map Char.toLower) suffix with
  | some suffix => name.take (name.length - suffix.length)
  | none => name

structure VztmplName where
  package : Text
  version : Text
  architecture : Text
deriving DecidableEq, Repr

/-- The pattern is `/^(.+)_([^_]+)_([^_]+)$/`. -/
def parseVztmplFilename (filename : Text) : VztmplName :=
  let base := withoutArchive (volidFilename filename)
  match (split '_' base).reverse with
  | architecture :: version :: first :: rest =>
      let package := join '_' (first :: rest).reverse
      if architecture ≠ [] && version ≠ [] && package ≠ [] && !package.any isLineEnd then
        ⟨package, version, architecture⟩
      else ⟨base, [], []⟩
  | _ => ⟨base, [], []⟩

section

variable (letters : Letters)

/-- `part.charAt(0).toUpperCase() + part.slice(1)`; half of a surrogate pair has no upper case. -/
def capitalized : Text → Text
  | [] => []
  | c :: rest => (if c.toNat < 0x10000 then letters.toUpperCase [c] else [c]) ++ rest

/-- A part of a headline; `/^\d/.test(part)` is a digit at the front. -/
def headlinePart (part : Text) : Text :=
  if part = [] then part
  else if part.head?.any Char.isDigit || part = letters.toUpperCase part then part
  else capitalized letters part

def headlineFromPackage (pkg : Text) : Text :=
  if trim pkg = [] then [] else join ' ' ((split '-' (trim pkg)).map (headlinePart letters))

def templateFromInstalledVolid (volid : Text) : CatalogTemplate :=
  let template := volidFilename volid
  let parsed := parseVztmplFilename template
  { template, package := parsed.package, version := parsed.version, sectionName := "system",
    headline := firstGiven (headlineFromPackage letters parsed.package) template, type := "lxc",
    os := [], architecture := parsed.architecture, installed := true, volid := some volid }

/-- `rank` of `sortAplTemplates`. -/
def sectionRank (sectionName : Text) : Int := if sectionName = "system" then 0 else 1

def sortAplTemplates (a b : AplTemplate) : Int :=
  let ranks := sectionRank a.sectionName - sectionRank b.sectionName
  if ranks ≠ 0 then ranks
  else
    let headlines := letters.localeCompare a.headline b.headline
    if headlines ≠ 0 then headlines else letters.localeCompare a.template b.template

/-! ## The catalog -/

/-- The name in lower case, by which files are merged. -/
def fileKey (volid : Text) : Text := letters.toLowerCase (volidFilename volid)

/-- The loop over the catalog. -/
def catalogByFile (catalog : List AplTemplate) : Record CatalogTemplate :=
  catalog.foldl
    (fun byFile row => byFile.set (letters.toLowerCase row.template)
      { row with installed := false, volid := none })
    Record.empty

/-- The body of the loop over the volumes. -/
def installVolid (byFile : Record CatalogTemplate) (volid : Text) : Record CatalogTemplate :=
  if volidFilename volid = [] then byFile
  else
    match byFile.get? (fileKey letters volid) with
    | some existing =>
        byFile.set (fileKey letters volid) { existing with installed := true, volid := some volid }
    | none => byFile.set (fileKey letters volid) (templateFromInstalledVolid letters volid)

/-- Installed templates come first. -/
def catalogOrder (a b : CatalogTemplate) : Int :=
  if a.installed ≠ b.installed then if a.installed then -1 else 1
  else sortAplTemplates letters a.toAplTemplate b.toAplTemplate

def mergeTemplateCatalog (catalog : List AplTemplate) (installedVolids : List Text) :
    List CatalogTemplate :=
  (installedVolids.foldl (installVolid letters) (catalogByFile letters catalog)).values.mergeSort
    fun a b => catalogOrder letters a b ≤ 0

/-! ## Packages -/

/-- The argument is of any type with these three fields. -/
def packageKey (row : AplTemplate) : Text :=
  let parsed := parseVztmplFilename row.template
  let pkg := firstGiven (letters.toLowerCase (trim (firstGiven row.package parsed.package)))
    (letters.toLowerCase row.template)
  let arch := letters.toLowerCase (trim (firstGiven row.architecture parsed.architecture))
  pkg ++ '|' :: arch

/-- The rows of a view: updates first, then what is installed, then by headline. -/
def viewOrder {Row : Type} (updateAvailable : Row → Bool) (installed headline : Row → Text)
    (a b : Row) : Int :=
  if updateAvailable a ≠ updateAvailable b then if updateAvailable a then -1 else 1
  else if decide (installed a = []) ≠ decide (installed b = []) then
    if installed a ≠ [] then -1 else 1
  else letters.localeCompare (headline a) (headline b)

/-- The row of a group. -/
def packageRow (key : Text) (list : List CatalogTemplate) : TemplatePackageRow :=
  let byVersion : CatalogTemplate → CatalogTemplate → Bool :=
    newestFirst letters (·.version) (·.template)
  let installed := (list.filter (·.installed)).mergeSort byVersion
  let newestInstalled := installed.head?
  let newestAny := (list.mergeSort byVersion).head?
  let field (read : CatalogTemplate → Text) (newest : Option CatalogTemplate) : Text :=
    (newest.map read).getD []
  let latestTemplate := field (·.template) newestAny
  let latestVersion := field (·.version) newestAny
  { key
    package := firstGiven (field (·.package) newestAny) (field (·.package) newestInstalled)
    headline := firstGiven (firstGiven (field (·.headline) newestAny) (field (·.headline) newestInstalled))
      latestTemplate
    sectionName := firstGiven
      (firstGiven (field (·.sectionName) newestAny) (field (·.sectionName) newestInstalled)) "system"
    architecture := firstGiven (field (·.architecture) newestAny)
      (field (·.architecture) newestInstalled)
    installedVersion := field (·.version) newestInstalled
    installedTemplate := field (·.template) newestInstalled
    installedVolids := (installed.filterMap (·.volid)).filter (· ≠ [])
    latestVersion
    latestTemplate
    updateAvailable := newestInstalled.any fun newest =>
      latestTemplate ≠ [] && latestTemplate ≠ newest.template &&
        isNewerVersion latestVersion newest.version }

/-- The map `groups`. -/
def templateGroups (rows : List CatalogTemplate) : Record (List CatalogTemplate) :=
  Record.groupBy (fun row => packageKey letters row.toAplTemplate) rows

def groupTemplatePackages (rows : List CatalogTemplate) : List TemplatePackageRow :=
  ((templateGroups letters rows).entries.map fun group =>
    packageRow letters group.1 group.2).mergeSort fun a b =>
      viewOrder letters (·.updateAvailable) (·.installedVersion) (·.headline) a b ≤ 0

/-! ## What the view should show -/

/-- Each volume is in one row, the keys differ, and an update is newer than all that is installed
of the package. -/
structure TemplatesKept (catalog : List AplTemplate) (volids : List Text) : Prop where
  once : ∀ volid ∈ volids,
    (groupTemplatePackages letters (mergeTemplateCatalog letters catalog volids)).countP
      (fun row => volid ∈ row.installedVolids) = 1
  keys : ((groupTemplatePackages letters (mergeTemplateCatalog letters catalog volids)).map
    (·.key)).Nodup
  updates : ∀ row ∈ groupTemplatePackages letters (mergeTemplateCatalog letters catalog volids),
    row.updateAvailable = true →
      ∀ entry ∈ mergeTemplateCatalog letters catalog volids, entry.installed = true →
        packageKey letters entry.toAplTemplate = row.key →
          isNewerVersion row.latestVersion entry.version = true

end

/-! ## Counting -/

/-- In a list with different keys, a test that only passes under one key passes once, if at all. -/
theorem countP_eq_one_iff {α κ : Type} {key : α → κ} {test : α → Bool} {items : List α}
    (different : (items.map key).Nodup)
    (only : ∀ x ∈ items, ∀ y ∈ items, test x = true → test y = true → key x = key y) :
    items.countP test = 1 ↔ ∃ x ∈ items, test x = true := by
  rw [List.countP_eq_length_filter]
  constructor
  · intro one
    obtain ⟨x, form⟩ := List.length_eq_one_iff.mp one
    have member : x ∈ items.filter test := form ▸ List.mem_singleton_self x
    exact ⟨x, List.mem_filter.mp member⟩
  · intro some
    obtain ⟨x, member, passes⟩ := some
    refine Nat.le_antisymm ?_ (List.length_pos_of_mem (List.mem_filter.mpr ⟨member, passes⟩))
    have apart : ((items.filter test).map key).Nodup :=
      different.sublist (List.filter_sublist.map key)
    cases form : items.filter test with
    | nil => exact Nat.zero_le 1
    | cons y others =>
        cases others with
        | nil => exact le_refl 1
        | cons z rest =>
            rw [form, List.map_cons, List.map_cons] at apart
            have left : y ∈ items.filter test := form ▸ List.mem_cons_self
            have right : z ∈ items.filter test :=
              form ▸ List.mem_cons_of_mem y List.mem_cons_self
            rw [List.mem_filter] at left right
            have same := only y left.1 z right.1 left.2 right.2
            exact absurd (same ▸ List.mem_cons_self) (List.nodup_cons.mp apart).1

/-! ## The merged catalog -/

section Merge

variable {letters : Letters} {catalog : List AplTemplate} {volids : List Text} {volid k : Text}
  {entry : CatalogTemplate}

/-- The last volume with a key. -/
def lastVolid (letters : Letters) (volids : List Text) (k : Text) : Option Text :=
  (volids.filter (fileKey letters · = k)).getLast?

theorem lastVolid_snoc : lastVolid letters (volids ++ [volid]) k =
    if k = fileKey letters volid then some volid else lastVolid letters volids k := by
  rw [lastVolid, List.filter_append]
  split_ifs with same
  · have own : [volid].filter (fileKey letters · = k) = [volid] := by simp [same]
    rw [own, List.getLast?_append, List.getLast?_singleton]
    rfl
  · have other : [volid].filter (fileKey letters · = k) = [] := by simp [Ne.symm same]
    rw [other, List.append_nil, lastVolid]

/-- The map while the volumes are gone through: an entry has the last volume with its key, and is
installed if there is one. -/
structure Merged (letters : Letters) (volids : List Text) (byFile : Record CatalogTemplate) : Prop
    where
  volid : ∀ k, ((byFile.get? k).bind (·.volid)) = lastVolid letters volids k
  installed : ∀ k entry, byFile.get? k = some entry → entry.installed = entry.volid.isSome

theorem merged_catalogByFile : Merged letters [] (catalogByFile letters catalog) := by
  have plain : ∀ k entry, (catalogByFile letters catalog).get? k = some entry →
      entry.installed = false ∧ entry.volid = none := by
    induction catalog using List.reverseRecOn with
    | nil =>
        intro k entry found
        cases found
    | append_singleton catalog row ih =>
        intro k entry found
        rw [catalogByFile, List.foldl_append, List.foldl_cons, List.foldl_nil,
          Record.get?_set] at found
        split_ifs at found
        · cases found
          exact ⟨rfl, rfl⟩
        · exact ih k entry found
  constructor
  · intro k
    cases found : (catalogByFile letters catalog).get? k with
    | none => rfl
    | some entry => exact (plain k entry found).2
  · intro k entry found
    rw [(plain k entry found).1, (plain k entry found).2]
    rfl

/-- What a volume sets: an installed entry with the volume. -/
theorem installVolid_eq (letters : Letters) (byFile : Record CatalogTemplate)
    (named : volidFilename volid ≠ []) :
    ∃ entry : CatalogTemplate, installVolid letters byFile volid =
        byFile.set (fileKey letters volid) entry ∧
      entry.installed = true ∧ entry.volid = some volid := by
  rw [installVolid, if_neg named]
  split
  · exact ⟨_, rfl, rfl, rfl⟩
  · exact ⟨_, rfl, rfl, rfl⟩

theorem Merged.install {byFile : Record CatalogTemplate} (merged : Merged letters volids byFile)
    (named : volidFilename volid ≠ []) :
    Merged letters (volids ++ [volid]) (installVolid letters byFile volid) := by
  obtain ⟨entry, same, installed, given⟩ := installVolid_eq letters byFile named
  rw [same]
  constructor
  · intro k
    rw [Record.get?_set, lastVolid_snoc]
    split_ifs
    · exact given
    · exact merged.volid k
  · intro k other found
    rw [Record.get?_set] at found
    split_ifs at found
    · cases found
      rw [installed, given]
      rfl
    · exact merged.installed k other found

theorem merged_foldl (letters : Letters) (catalog : List AplTemplate)
    (named : ∀ volid ∈ volids, volidFilename volid ≠ []) :
    Merged letters volids
      (volids.foldl (installVolid letters) (catalogByFile letters catalog)) := by
  induction volids using List.reverseRecOn with
  | nil => exact merged_catalogByFile
  | append_singleton volids volid ih =>
      rw [List.foldl_append, List.foldl_cons, List.foldl_nil]
      exact (ih fun other member => named other (List.mem_append_left _ member)).install
        (named volid (List.mem_append_right _ (List.mem_singleton_self volid)))

theorem mem_mergeTemplateCatalog : entry ∈ mergeTemplateCatalog letters catalog volids ↔
    ∃ k, (volids.foldl (installVolid letters) (catalogByFile letters catalog)).get? k =
      some entry := by
  rw [mergeTemplateCatalog, (List.mergeSort_perm _ _).mem_iff, Record.values, List.mem_map]
  constructor
  · intro listed
    obtain ⟨⟨k, value⟩, member, rfl⟩ := listed
    exact ⟨k, Record.get?_eq_some_iff.mpr member⟩
  · intro found
    obtain ⟨k, found⟩ := found
    exact ⟨(k, entry), Record.get?_eq_some_iff.mp found, rfl⟩

/-- An entry with a volume is the one under the key of the volume. -/
theorem get?_fileKey (named : ∀ volid ∈ volids, volidFilename volid ≠ [])
    (member : entry ∈ mergeTemplateCatalog letters catalog volids)
    (given : entry.volid = some volid) :
    (volids.foldl (installVolid letters) (catalogByFile letters catalog)).get?
      (fileKey letters volid) = some entry := by
  obtain ⟨k, found⟩ := mem_mergeTemplateCatalog.mp member
  have last := (merged_foldl letters catalog named).volid k
  rw [found, Option.bind_some, given, lastVolid] at last
  have kept := List.mem_filter.mp (List.mem_of_getLast? last.symm)
  rw [of_decide_eq_true kept.2]
  exact found

/-- A volume has an entry if it is the last one with its key. -/
theorem exists_installed_iff (named : ∀ volid ∈ volids, volidFilename volid ≠ []) :
    (∃ entry ∈ mergeTemplateCatalog letters catalog volids,
        entry.installed = true ∧ entry.volid = some volid) ↔
      lastVolid letters volids (fileKey letters volid) = some volid := by
  have merged := merged_foldl letters catalog named
  constructor
  · intro held
    obtain ⟨entry, member, -, given⟩ := held
    rw [← merged.volid, get?_fileKey named member given]
    exact given
  · intro last
    rw [← merged.volid] at last
    obtain ⟨entry, found, given⟩ := Option.bind_eq_some_iff.mp last
    refine ⟨entry, mem_mergeTemplateCatalog.mpr ⟨_, found⟩, ?_, given⟩
    rw [merged.installed _ entry found, given]
    rfl

/-- Each volume is the last one with its key exactly if the keys differ. -/
theorem forall_lastVolid_iff (distinct : volids.Nodup) :
    (∀ volid ∈ volids, lastVolid letters volids (fileKey letters volid) = some volid) ↔
      (volids.map (fileKey letters)).Nodup := by
  constructor
  · intro last
    refine distinct.map_on fun volid member other present same => ?_
    have left := last volid member
    rw [same, last other present] at left
    exact (Option.some.inj left).symm
  · intro different volid member
    have kept : volid ∈ volids.filter (fileKey letters · = fileKey letters volid) :=
      List.mem_filter.mpr ⟨member, decide_eq_true rfl⟩
    obtain ⟨other, last⟩ := Option.isSome_iff_exists.mp
      (List.getLast?_isSome.mpr (List.ne_nil_of_mem kept))
    have found := List.mem_filter.mp (List.mem_of_getLast? last)
    rw [lastVolid, last, List.inj_on_of_nodup_map different found.1 member (of_decide_eq_true found.2)]

end Merge

/-! ## The rows -/

section Rows

variable {letters : Letters} {catalog : List AplTemplate} {volids : List Text} {volid k : Text}
  {rows list : List CatalogTemplate} {row : TemplatePackageRow}

theorem mem_installedVolids_packageRow (given : volid ≠ []) :
    volid ∈ (packageRow letters k list).installedVolids ↔
      ∃ entry ∈ list, entry.installed = true ∧ entry.volid = some volid := by
  rw [packageRow, List.mem_filter, List.mem_filterMap, and_iff_left (decide_eq_true given)]
  refine exists_congr fun entry => ?_
  rw [(List.mergeSort_perm _ _).mem_iff, List.mem_filter, and_assoc]

theorem groupTemplatePackages_perm : (groupTemplatePackages letters rows).Perm
    ((templateGroups letters rows).entries.map fun group => packageRow letters group.1 group.2) :=
  List.mergeSort_perm _ _

theorem mem_templateGroups {group : Text × List CatalogTemplate} :
    group ∈ (templateGroups letters rows).entries ↔ group.2 ≠ [] ∧
      group.2 = rows.filter fun row => packageKey letters row.toAplTemplate = group.1 :=
  Record.mem_groupBy

theorem nodup_keys : ((groupTemplatePackages letters rows).map (·.key)).Nodup := by
  have keys (groups : List (Text × List CatalogTemplate)) :
      (groups.map fun group => packageRow letters group.1 group.2).map (·.key) =
        groups.map Prod.fst := by
    rw [List.map_map]
    rfl
  rw [(groupTemplatePackages_perm.map _).nodup_iff, keys]
  exact (templateGroups letters rows).nodup

/-- An update is newer than all installed entries of its group. -/
theorem isNewerVersion_of_packageRow {entry : CatalogTemplate}
    (update : (packageRow letters k list).updateAvailable = true) (member : entry ∈ list)
    (installed : entry.installed = true) :
    isNewerVersion (packageRow letters k list).latestVersion entry.version = true := by
  obtain ⟨newest, head, newer⟩ := (Option.any_eq_true _ _).mp update
  rw [Bool.and_eq_true] at newer
  have first : ((list.filter (·.installed)).mergeSort
      (newestFirst letters (fun entry : CatalogTemplate => entry.version) (·.template))).head? =
        some newest := head
  have all := isNewerVersion_of_head first newer.2 (List.mem_filter.mpr ⟨member, installed⟩)
  exact all

/-- A volume with an entry is in one row: the one of the group of its entry. -/
theorem countP_installedVolids (named : ∀ volid ∈ volids, volidFilename volid ≠ [])
    (given : volid ≠ []) :
    (groupTemplatePackages letters (mergeTemplateCatalog letters catalog volids)).countP
        (fun row => volid ∈ row.installedVolids) = 1 ↔
      ∃ entry ∈ mergeTemplateCatalog letters catalog volids,
        entry.installed = true ∧ entry.volid = some volid := by
  have shown {group : Text × List CatalogTemplate}
      (member : group ∈
        (templateGroups letters (mergeTemplateCatalog letters catalog volids)).entries)
      (listed : decide (volid ∈ (packageRow letters group.1 group.2).installedVolids) = true) :
      ∃ entry ∈ mergeTemplateCatalog letters catalog volids, entry.installed = true ∧
        entry.volid = some volid ∧ packageKey letters entry.toAplTemplate = group.1 := by
    rw [decide_eq_true_iff, mem_installedVolids_packageRow given] at listed
    obtain ⟨entry, inGroup, installed, held⟩ := listed
    rw [(mem_templateGroups.mp member).2, List.mem_filter] at inGroup
    exact ⟨entry, inGroup.1, installed, held, of_decide_eq_true inGroup.2⟩
  rw [groupTemplatePackages_perm.countP_eq, List.countP_map,
    countP_eq_one_iff (templateGroups letters (mergeTemplateCatalog letters catalog volids)).nodup]
  · constructor
    · intro held
      obtain ⟨group, member, listed⟩ := held
      obtain ⟨entry, inMerged, installed, given, -⟩ := shown member listed
      exact ⟨entry, inMerged, installed, given⟩
    · intro held
      obtain ⟨entry, member, installed, held⟩ := held
      have inGroup : entry ∈ (mergeTemplateCatalog letters catalog volids).filter fun row =>
          packageKey letters row.toAplTemplate = packageKey letters entry.toAplTemplate :=
        List.mem_filter.mpr ⟨member, decide_eq_true rfl⟩
      refine ⟨(packageKey letters entry.toAplTemplate, _),
        mem_templateGroups.mpr ⟨List.ne_nil_of_mem inGroup, rfl⟩, ?_⟩
      exact decide_eq_true
        ((mem_installedVolids_packageRow given).mpr ⟨entry, inGroup, installed, held⟩)
  · intro left inLeft right inRight leftShown rightShown
    obtain ⟨x, xMember, -, xGiven, xKey⟩ := shown inLeft leftShown
    obtain ⟨y, yMember, -, yGiven, yKey⟩ := shown inRight rightShown
    have same := (get?_fileKey named xMember xGiven).symm.trans (get?_fileKey named yMember yGiven)
    rw [← xKey, ← yKey, Option.some.inj same]

/-- **Templates.** The view shows everything exactly if no two volumes have the same name, in lower
case. -/
theorem templatesKept_iff (distinct : volids.Nodup)
    (named : ∀ volid ∈ volids, volidFilename volid ≠ []) :
    TemplatesKept letters catalog volids ↔ (volids.map (fileKey letters)).Nodup := by
  have given (volid : Text) (member : volid ∈ volids) : volid ≠ [] := by
    rintro rfl
    exact named [] member rfl
  rw [← forall_lastVolid_iff distinct]
  constructor
  · intro kept volid member
    rw [← exists_installed_iff named, ← countP_installedVolids named (given volid member)]
    exact kept.once volid member
  · intro last
    refine ⟨fun volid member => ?_, nodup_keys, ?_⟩
    · rw [countP_installedVolids named (given volid member), exists_installed_iff named]
      exact last volid member
    · intro row member update entry listed installed same
      obtain ⟨group, inGroups, rfl⟩ :=
        List.mem_map.mp (groupTemplatePackages_perm.mem_iff.mp member)
      refine isNewerVersion_of_packageRow update ?_ installed
      rw [(mem_templateGroups.mp inGroups).2]
      exact List.mem_filter.mpr ⟨listed, decide_eq_true same⟩

end Rows

end Proxora
