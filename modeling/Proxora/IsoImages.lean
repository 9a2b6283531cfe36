import Proxora.Ecma.Regex
import Proxora.LxcTemplates

/-!
# ISO images

`isoFamily`, `isoVersionFromFilename` and `mergeIsoCatalog` of `lib/iso-images.ts`. An installed
file belongs to the catalog item of its family; a file of another family gets a row of its own, with
its name in lower case as the key.

`isosKept_iff` says that a view of items of different families shows each volume once, and that its
keys differ exactly if the ids differ and the names of the other files do. `installedViews_law` puts
this beside the view of the templates.
-/

namespace Proxora

open Ecma Ecma.Regex

/-- `IsoCatalogItem`; `sectionName` is `section`. -/
structure IsoCatalogItem where
  id : Text
  headline : Text
  sectionName : Text
  filename : Text
  url : Text
  version : Text
deriving DecidableEq, Repr

structure IsoPackageRow where
  key : Text
  headline : Text
  sectionName : Text
  url : Text
  installedVersion : Text
  installedFilename : Text
  installedVolids : List Text
  latestVersion : Text
  latestFilename : Text
  updateAvailable : Bool
deriving DecidableEq, Repr

def virtioWinCatalogItem : IsoCatalogItem where
  id := "virtio-win-drivers"
  headline := "VirtIO Windows drivers"
  sectionName := "windows"
  filename := "virtio-win-0.1.271.iso"
  url := ("https://fedorapeople.org/groups/virt/virtio-win/direct-downloads/" : Text) ++
    ("archive-virtio/virtio-win-0.1.271-1/virtio-win-0.1.271.iso" : Text)
  version := "0.1.271"

def isoCatalog : List IsoCatalogItem :=
  [{ id := "debian-13-netinst-amd64"
     headline := "Debian 13 (Trixie) netinst"
     sectionName := "linux"
     filename := "debian-13.6.0-amd64-netinst.iso"
     url := ("https://cdimage.debian.org/debian-cd/current/amd64/iso-cd/" : Text) ++
       ("debian-13.6.0-amd64-netinst.iso" : Text)
     version := "13.6.0" },
   { id := "ubuntu-24.04-server-amd64"
     headline := "Ubuntu 24.04 LTS Server"
     sectionName := "linux"
     filename := "ubuntu-24.04.3-live-server-amd64.iso"
     url := "https://releases.ubuntu.com/24.04/ubuntu-24.04.3-live-server-amd64.iso"
     version := "24.04.3" },
   virtioWinCatalogItem]

/-! ## Patterns -/

/-- `\.\d+`. -/
def dotDigits : Regex := .seq (lit ".") (plus digit)

/-- `[-_]?`. -/
def optMark : Regex := opt (.cls fun c => c = '-' || c = '_')

/-- `virtio[-_]?win`, with the flag `i`. -/
def virtioWin : Regex := cat [litI "virtio", optMark, litI "win"]

/-- `/^(debian(?:-edu|-mac)?)-(\d+)(?:\.\d+)*-([^-]+)-netinst\.iso$/`. -/
def debianIso : Regex :=
  cat [.bos, .group 1 (.seq (lit "debian") (opt (alts [lit "-edu", lit "-mac"]))), lit "-",
    .group 2 (plus digit), .star dotDigits, lit "-", .group 3 (plus (noneOf ['-'])),
    lit "-netinst.iso", .eos]

/-- `/^(ubuntu)-(\d+\.\d+)(?:\.\d+)?-(live-server|desktop)-([^.]+)\.iso$/`. -/
def ubuntuIso : Regex :=
  cat [.bos, .group 1 (lit "ubuntu"), lit "-", .group 2 (.seq (plus digit) dotDigits),
    opt dotDigits, lit "-", .group 3 (alts [lit "live-server", lit "desktop"]), lit "-",
    .group 4 (plus (noneOf ['.'])), lit ".iso", .eos]

/-- `virtio[-_]?win[-_]?(\d+\.\d+\.\d+)`, with the flag `i`. -/
def virtioVersion : Regex :=
  cat [virtioWin, optMark, .group 1 (cat [plus digit, dotDigits, dotDigits])]

/-- `debian(?:-edu|-mac)?-(\d+(?:\.\d+)*)-`, with the flag `i`. -/
def debianVersion : Regex :=
  cat [litI "debian", opt (alts [litI "-edu", litI "-mac"]), lit "-",
    .group 1 (.seq (plus digit) (.star dotDigits)), lit "-"]

/-- `ubuntu-(\d+\.\d+(?:\.\d+)?)-`, with the flag `i`. -/
def ubuntuVersion : Regex :=
  cat [litI "ubuntu-", .group 1 (cat [plus digit, dotDigits, opt dotDigits]), lit "-"]

/-- A group of a match, the empty text if it is undefined. -/
def capturedText (found : Found) (index : Nat) : Text := (found.group index).getD []

/-- `file.replace(/\.iso$/i, "")`. -/
def withoutIso (file : Text) : Text :=
  if endsWith (file.map Char.toLower) ".iso" then file.take (file.length - 4) else file

def isoVersionFromFilename (filename : Text) : Text :=
  let file := volidFilename filename
  let first (pattern : Regex) : Text := ((pattern.exec file).map (capturedText · 1)).getD []
  firstGiven (firstGiven (first virtioVersion) (first debianVersion)) (first ubuntuVersion)

section

variable (letters : Letters)

def isoFamily (filename : Text) : Text :=
  let file := letters.toLowerCase (volidFilename filename)
  if (Regex.seq .bos virtioWin).test file then "virtio-win"
  else
    match debianIso.exec file with
    | some debian =>
        capturedText debian 1 ++ '-' :: (capturedText debian 2 ++ '-' :: (capturedText debian 3 ++
          ("-netinst" : Text)))
    | none =>
        match ubuntuIso.exec file with
        | some ubuntu =>
            capturedText ubuntu 1 ++ '-' :: (capturedText ubuntu 2 ++ '-' :: (capturedText ubuntu 3 ++
              '-' :: capturedText ubuntu 4))
        | none => firstGiven (withoutIso file) file

/-! ## The view -/

/-- `matches` of an item. -/
def isoMatches (installed : List Text) (item : IsoCatalogItem) : List Text :=
  installed.filter fun volid => isoFamily letters volid = isoFamily letters item.filename

/-- The row of an item; none of the volumes is empty. -/
def isoCatalogRow (installed : List Text) (item : IsoCatalogItem) : IsoPackageRow :=
  let newestInstalled := ((isoMatches letters installed item).mergeSort
    (newestFirst letters isoVersionFromFilename volidFilename)).head?
  let installedFilename := (newestInstalled.map volidFilename).getD []
  { key := item.id
    headline := item.headline
    sectionName := item.sectionName
    url := item.url
    installedVersion := (newestInstalled.map isoVersionFromFilename).getD []
    installedFilename
    installedVolids := isoMatches letters installed item
    latestVersion := item.version
    latestFilename := item.filename
    updateAvailable := installedFilename ≠ [] && installedFilename ≠ item.filename &&
      isNewerVersion item.version (isoVersionFromFilename (newestInstalled.getD [])) }

/-- The key of a file that is not in the catalog. -/
def localKey (volid : Text) : Text := ("local:" : Text) ++ fileKey letters volid

def isoLocalRow (volid : Text) : IsoPackageRow :=
  let filename := volidFilename volid
  { key := localKey letters volid
    headline := filename
    sectionName := "iso"
    url := []
    installedVersion := isoVersionFromFilename filename
    installedFilename := filename
    installedVolids := [volid]
    latestVersion := isoVersionFromFilename filename
    latestFilename := filename
    updateAvailable := false }

/-- The rows before they are sorted. -/
def isoRows (installedVolids : List Text) (catalog : List IsoCatalogItem) : List IsoPackageRow :=
  let installed := installedVolids.filter (· ≠ [])
  let used := catalog.flatMap (isoMatches letters installed)
  catalog.map (isoCatalogRow letters installed) ++
    (installed.filter (· ∉ used)).map (isoLocalRow letters)

def mergeIsoCatalog (installedVolids : List Text) (catalog : List IsoCatalogItem) :
    List IsoPackageRow :=
  (isoRows letters installedVolids catalog).mergeSort fun a b =>
    viewOrder letters (·.updateAvailable) (·.installedFilename) (·.headline) a b ≤ 0

/-- Each volume is in one row, the keys differ, and an update is newer than all that is installed in
its row. -/
structure IsosKept (catalog : List IsoCatalogItem) (volids : List Text) : Prop where
  once : ∀ volid ∈ volids,
    (mergeIsoCatalog letters volids catalog).countP (fun row => volid ∈ row.installedVolids) = 1
  keys : ((mergeIsoCatalog letters volids catalog).map (·.key)).Nodup
  updates : ∀ row ∈ mergeIsoCatalog letters volids catalog, row.updateAvailable = true →
    ∀ volid ∈ row.installedVolids,
      isNewerVersion row.latestVersion (isoVersionFromFilename volid) = true

/-- The volumes of no item's family. -/
def otherVolids (catalog : List IsoCatalogItem) (volids : List Text) : List Text :=
  volids.filter fun volid =>
    catalog.all fun item => isoFamily letters volid ≠ isoFamily letters item.filename

/-- The ids differ, the names of the other volumes do, and no id is the key of such a name. -/
structure DifferentKeys (catalog : List IsoCatalogItem) (volids : List Text) : Prop where
  ids : (catalog.map (·.id)).Nodup
  names : ((otherVolids letters catalog volids).map (fileKey letters)).Nodup
  apart : ∀ item ∈ catalog, ∀ volid ∈ otherVolids letters catalog volids,
    item.id ≠ localKey letters volid

end

/-! ## The rows -/

section

variable {letters : Letters} {catalog : List IsoCatalogItem} {volids installed : List Text}
  {volid : Text} {item : IsoCatalogItem}

theorem mem_isoMatches : volid ∈ isoMatches letters installed item ↔
    volid ∈ installed ∧ isoFamily letters volid = isoFamily letters item.filename := by
  rw [isoMatches, List.mem_filter, decide_eq_true_iff]

/-- The volumes that are not used are those of no item's family. -/
theorem filter_unused : (volids.filter fun volid =>
    volid ∉ catalog.flatMap (isoMatches letters volids)) = otherVolids letters catalog volids := by
  refine List.filter_congr fun volid member => ?_
  rw [Bool.eq_iff_iff, decide_eq_true_iff, List.all_eq_true, List.mem_flatMap]
  constructor
  · intro unused item listed
    refine decide_eq_true fun same => unused ⟨item, listed, mem_isoMatches.mpr ⟨member, same⟩⟩
  · intro other used
    obtain ⟨item, listed, matched⟩ := used
    exact of_decide_eq_true (other item listed) (mem_isoMatches.mp matched).2

/-- The rows of volumes that all have a name. -/
theorem isoRows_eq (named : ∀ volid ∈ volids, volidFilename volid ≠ []) :
    isoRows letters volids catalog = catalog.map (isoCatalogRow letters volids) ++
      (otherVolids letters catalog volids).map (isoLocalRow letters) := by
  have given : volids.filter (· ≠ []) = volids := by
    refine List.filter_eq_self.mpr fun volid member => decide_eq_true ?_
    rintro rfl
    exact named [] member rfl
  rw [isoRows, given, filter_unused]

theorem mergeIsoCatalog_perm :
    (mergeIsoCatalog letters volids catalog).Perm (isoRows letters volids catalog) :=
  List.mergeSort_perm _ _

/-- **Conservation.** With items of different families, each volume is in one row. -/
theorem countP_isoVolids (distinct : volids.Nodup)
    (named : ∀ volid ∈ volids, volidFilename volid ≠ [])
    (families : (catalog.map fun item => isoFamily letters item.filename).Nodup)
    (member : volid ∈ volids) :
    (mergeIsoCatalog letters volids catalog).countP
      (fun row => volid ∈ row.installedVolids) = 1 := by
  rw [mergeIsoCatalog_perm.countP_eq, isoRows_eq named, List.countP_append, List.countP_map,
    List.countP_map]
  have other : volid ∈ otherVolids letters catalog volids ↔
      ¬ ∃ item ∈ catalog, isoFamily letters volid = isoFamily letters item.filename := by
    rw [otherVolids, List.mem_filter, and_iff_right member, List.all_eq_true, not_exists]
    simp only [decide_eq_true_eq, not_and, ne_eq]
  by_cases own : ∃ item ∈ catalog, isoFamily letters volid = isoFamily letters item.filename
  · have inCatalog : catalog.countP ((fun row : IsoPackageRow => decide
        (volid ∈ row.installedVolids)) ∘ isoCatalogRow letters volids) = 1 := by
      rw [countP_eq_one_iff families]
      · obtain ⟨item, listed, same⟩ := own
        exact ⟨item, listed, decide_eq_true (mem_isoMatches.mpr ⟨member, same⟩)⟩
      · intro x _ y _ left right
        exact (mem_isoMatches.mp (of_decide_eq_true left)).2.symm.trans
          (mem_isoMatches.mp (of_decide_eq_true right)).2
    rw [inCatalog, List.countP_eq_zero.mpr]
    intro stray inOthers shown
    have same := List.mem_singleton.mp (of_decide_eq_true shown)
    exact other.mp (same ▸ inOthers) own
  · have alone : (otherVolids letters catalog volids).countP ((fun row : IsoPackageRow => decide
        (volid ∈ row.installedVolids)) ∘ isoLocalRow letters) = 1 := by
      have different : ((otherVolids letters catalog volids).map id).Nodup := by
        rw [List.map_id]
        exact distinct.filter _
      rw [countP_eq_one_iff different]
      · exact ⟨volid, other.mpr own, decide_eq_true (List.mem_singleton_self volid)⟩
      · intro x _ y _ left right
        exact (List.mem_singleton.mp (of_decide_eq_true left)).symm.trans
          (List.mem_singleton.mp (of_decide_eq_true right))
    rw [alone, List.countP_eq_zero.mpr]
    intro item listed shown
    exact own ⟨item, listed, (mem_isoMatches.mp (of_decide_eq_true shown)).2⟩

/-- **Keys.** -/
theorem nodup_isoKeys_iff (named : ∀ volid ∈ volids, volidFilename volid ≠ []) :
    ((mergeIsoCatalog letters volids catalog).map (·.key)).Nodup ↔
      DifferentKeys letters catalog volids := by
  have ids : (catalog.map (isoCatalogRow letters volids)).map (·.key) = catalog.map (·.id) := by
    rw [List.map_map]
    rfl
  have names : ((otherVolids letters catalog volids).map (isoLocalRow letters)).map (·.key) =
      ((otherVolids letters catalog volids).map (fileKey letters)).map
        (("local:" : Text) ++ ·) := by
    rw [List.map_map, List.map_map]
    rfl
  rw [(mergeIsoCatalog_perm.map _).nodup_iff, isoRows_eq named, List.map_append, List.nodup_append,
    ids, names, List.nodup_map_iff (List.append_right_injective _)]
  constructor
  · intro apart
    refine ⟨apart.1, apart.2.1, fun item listed volid other => ?_⟩
    exact apart.2.2 _ (List.mem_map_of_mem listed) _
      (List.mem_map_of_mem (List.mem_map_of_mem other))
  · intro different
    refine ⟨different.ids, different.names, fun id isId key isKey => ?_⟩
    obtain ⟨item, listed, rfl⟩ := List.mem_map.mp isId
    obtain ⟨_, isName, rfl⟩ := List.mem_map.mp isKey
    obtain ⟨volid, other, rfl⟩ := List.mem_map.mp isName
    exact different.apart item listed volid other

/-- An update is newer than all volumes of its row. -/
theorem isNewerVersion_of_isoRow {row : IsoPackageRow}
    (named : ∀ volid ∈ volids, volidFilename volid ≠ [])
    (member : row ∈ mergeIsoCatalog letters volids catalog) (update : row.updateAvailable = true)
    (listed : volid ∈ row.installedVolids) :
    isNewerVersion row.latestVersion (isoVersionFromFilename volid) = true := by
  rw [mergeIsoCatalog_perm.mem_iff, isoRows_eq named, List.mem_append, List.mem_map,
    List.mem_map] at member
  rcases member with ⟨item, -, rfl⟩ | ⟨other, -, rfl⟩
  · have newest := update
    rw [isoCatalogRow] at newest
    cases head : ((isoMatches letters volids item).mergeSort
      (newestFirst letters isoVersionFromFilename volidFilename)).head? with
    | none =>
        rw [head] at newest
        cases newest
    | some first =>
        rw [head, Bool.and_eq_true] at newest
        exact isNewerVersion_of_head head newest.2 listed
  · cases update

theorem isosKept_iff (distinct : volids.Nodup)
    (named : ∀ volid ∈ volids, volidFilename volid ≠ [])
    (families : (catalog.map fun item => isoFamily letters item.filename).Nodup) :
    IsosKept letters catalog volids ↔ DifferentKeys letters catalog volids := by
  rw [← nodup_isoKeys_iff named]
  constructor
  · intro kept
    exact kept.keys
  · intro keys
    exact ⟨fun volid member => countP_isoVolids distinct named families member, keys,
      fun row member update volid listed => isNewerVersion_of_isoRow named member update listed⟩

/-- **Installed files.** The view of the templates shows all volumes exactly if no two of them have
the same name, in lower case; the view of the ISO images does for a catalog of different families,
and its rows have different keys exactly if the ids differ and so do the names of the volumes of
other families. -/
theorem installedViews_law {templates : List AplTemplate} (distinct : volids.Nodup)
    (named : ∀ volid ∈ volids, volidFilename volid ≠ []) :
    (TemplatesKept letters templates volids ↔ (volids.map (fileKey letters)).Nodup) ∧
      ((catalog.map fun item => isoFamily letters item.filename).Nodup →
        (IsosKept letters catalog volids ↔ DifferentKeys letters catalog volids)) :=
  ⟨templatesKept_iff distinct named, isosKept_iff distinct named⟩

end

/-! ## Views -/

/-- Letters of ASCII texts; `localeCompare` is taken for the order of the code points. -/
def plainLetters : Letters where
  toLowerCase := toLowerCase
  toUpperCase := toUpperCase
  localeCompare a b := if a < b then -1 else if b < a then 1 else 0
  flip a b := by
    rcases lt_trichotomy a b with below | rfl | above
    · simp [below, lt_asymm below]
    · simp
    · simp [above, lt_asymm above]
  trans a b c := by
    have order (x y : Text) :
        (if x < y then (-1 : Int) else if y < x then 1 else 0) ≤ 0 ↔ x ≤ y := by
      rcases lt_trichotomy x y with below | rfl | above
      · simp [below, below.le]
      · simp
      · simp [above, lt_asymm above, above.not_ge]
    rw [order, order, order]
    exact le_trans

/-- The same template on two storages, and the same image. -/
theorem not_kept_on_two_storages :
    (["local:vztmpl/a_1_amd64.tar.zst", "nas:vztmpl/a_1_amd64.tar.zst"] : List Text).Nodup ∧
      (∀ volid ∈ (["local:vztmpl/a_1_amd64.tar.zst", "nas:vztmpl/a_1_amd64.tar.zst"] : List Text),
        volidFilename volid ≠ []) ∧
      ¬ TemplatesKept plainLetters []
        ["local:vztmpl/a_1_amd64.tar.zst", "nas:vztmpl/a_1_amd64.tar.zst"] ∧
      ¬ IsosKept plainLetters isoCatalog ["local:iso/a.iso", "nas:iso/a.iso"] := by
  refine ⟨by decide, by decide +kernel, fun kept => ?_, fun kept => ?_⟩
  · have lost := kept.once "local:vztmpl/a_1_amd64.tar.zst" List.mem_cons_self
    revert lost
    decide +kernel
  · have different := ((nodup_isoKeys_iff (by decide +kernel)).mp kept.keys).names
    revert different
    decide +kernel

theorem installedViews_law_debian :
    TemplatesKept plainLetters []
        ["local:vztmpl/debian-13_13.1-2_amd64.tar.zst", "nas:iso/debian-13.1.0-amd64-netinst.iso"] ∧
      IsosKept plainLetters isoCatalog
        ["local:vztmpl/debian-13_13.1-2_amd64.tar.zst",
          "nas:iso/debian-13.1.0-amd64-netinst.iso"] := by
  have law : (TemplatesKept plainLetters [] (["local:vztmpl/debian-13_13.1-2_amd64.tar.zst",
        "nas:iso/debian-13.1.0-amd64-netinst.iso"] : List Text) ↔ _) ∧ (_ →
      (IsosKept plainLetters isoCatalog (["local:vztmpl/debian-13_13.1-2_amd64.tar.zst",
        "nas:iso/debian-13.1.0-amd64-netinst.iso"] : List Text) ↔ _)) :=
    installedViews_law (by decide) (by decide)
  exact ⟨law.1.mpr (by decide),
    (law.2 (by decide)).mpr ⟨by decide, by decide, by decide⟩⟩

end Proxora
