import Proxora.GuestUpload
import Proxora.Steps

/-!
# Sidecars of uploads

The paths of the part file and of its metadata, and `clearUploadSidecars` and
`collectUploadPartials` of `server/services/guest-files.ts`, which look for part files in a
directory and unlink those that are too old.

`sidecars_apart_iff` says for which two destinations the sidecars keep apart;
`collectUploadPartials_own_iff` when the search unlinks only part files that it has listed as
expired. A destination that carries the suffix itself, and a listed name that the path rules
read otherwise, are what goes wrong.
-/

namespace Proxora

open Ecma Steps Steps.Program

/-! ## Suffixes of paths -/

section Suffix

variable {α : Type} {sep : α} {suffix front name : List α}

/-- A suffix without separators lies behind the last one. -/
theorem suffix_append_cons_iff (free : sep ∉ suffix) :
    suffix <:+ front ++ sep :: name ↔ suffix <:+ name := by
  constructor
  · rintro ⟨rest, cut⟩
    rcases List.append_eq_append_iff.mp cut with ⟨middle, -, behind⟩ | ⟨middle, -, behind⟩
    · exact absurd (behind ▸ List.mem_append_right middle List.mem_cons_self) free
    · cases middle with
      | nil =>
          have whole : sep :: name = suffix := behind
          exact absurd (whole ▸ List.mem_cons_self) free
      | cons c middle =>
          injection behind with _ behind
          exact ⟨middle, behind.symm⟩
  · intro behind
    exact behind.trans ((List.suffix_cons sep name).trans (List.suffix_append _ _))

end Suffix

theorem isGuestUploadPartName_iff {name : Text} :
    isGuestUploadPartName name = true ↔ guestUploadPartSuffix <:+ name := by
  unfold isGuestUploadPartName endsWith
  rw [Bool.and_eq_true, List.isSuffixOf_iff_suffix, Bool.not_eq_true', ← Bool.not_eq_true,
    List.isSuffixOf_iff_suffix]
  refine and_iff_left_of_imp fun part meta_ => ?_
  have ends := part.getLast (by decide)
  rw [← meta_.getLast (by decide)] at ends
  exact absurd ends (by decide)

theorem takeWhile_slash {s : Text} (slash : '/' ∈ s) :
    ∃ rest, s = s.takeWhile (· ≠ '/') ++ '/' :: rest := by
  induction s with
  | nil => cases slash
  | cons c s ih =>
      by_cases here : c = '/'
      · rw [here]
        exact ⟨s, rfl⟩
      · obtain ⟨rest, form⟩ := ih ((List.mem_cons.mp slash).resolve_left (Ne.symm here))
        refine ⟨rest, ?_⟩
        rw [List.takeWhile_cons_of_pos (p := (· ≠ '/')) (decide_eq_true here), List.cons_append,
          ← form]

theorem afterLastSlash_append {path : Text} (slash : '/' ∈ path) :
    ∃ front, path = front ++ '/' :: afterLastSlash path := by
  obtain ⟨rest, cut⟩ := takeWhile_slash (List.mem_reverse.mpr slash)
  refine ⟨rest.reverse, ?_⟩
  have back := congrArg List.reverse cut
  rwa [List.reverse_reverse, List.reverse_append, List.reverse_cons, List.append_assoc] at back

namespace GuestPath

theorem starts (dest : GuestPath) : ∃ rest, dest.text = '/' :: rest := by
  have resolved := dest.resolved
  unfold resolveGuestPath at resolved
  split at resolved
  · cases resolved
  · split at resolved
    · cases resolved
    · dsimp only at resolved
      split at resolved
      · cases resolved
      · injection resolved with form
        exact ⟨_, form.symm⟩

/-- A part file is known by the end of its whole path. -/
theorem isPart_iff (dest : GuestPath) :
    dest.isPart = true ↔ guestUploadPartSuffix <:+ dest.text := by
  have free : '/' ∉ guestUploadPartSuffix := by decide
  obtain ⟨rest, form⟩ := dest.starts
  unfold isPart
  rw [isGuestUploadPartName_iff]
  split
  · rename_i root
    rw [root]
  · have slash : '/' ∈ dest.text := form ▸ List.mem_cons_self
    obtain ⟨front, cut⟩ := afterLastSlash_append slash
    conv_rhs => rw [cut]
    exact (suffix_append_cons_iff free).symm

theorem partPath_suffix (dest : GuestPath) : guestUploadPartSuffix <:+ dest.partPath := by
  unfold partPath
  split
  · rename_i part
    exact dest.isPart_iff.mp part
  · exact List.suffix_append _ _

/-- No part file is a metadata file. -/
theorem partPath_ne_metaPath (dest other : GuestPath) : dest.partPath ≠ other.metaPath := by
  intro same
  have behind : (".meta" : Text) <:+ other.metaPath := List.suffix_append _ _
  have ends := (same ▸ dest.partPath_suffix).getLast (by decide)
  rw [← behind.getLast (by decide)] at ends
  exact absurd ends (by decide)

theorem metaPath_eq_iff {dest other : GuestPath} :
    dest.metaPath = other.metaPath ↔ dest.partPath = other.partPath :=
  List.append_left_inj _

/-- `other` is `dest` with the suffix of part files, and `dest` has none. -/
def IsPartOf (other dest : GuestPath) : Prop :=
  ¬guestUploadPartSuffix <:+ dest.text ∧ other.text = dest.text ++ guestUploadPartSuffix

/-- `other` is `dest` with the suffix of metadata files, or with the end of it where `dest` has
the suffix of part files. -/
def IsMetaOf (other dest : GuestPath) : Prop :=
  ¬guestUploadPartSuffix <:+ dest.text ∧ other.text = dest.text ++ guestUploadMetaSuffix ∨
    guestUploadPartSuffix <:+ dest.text ∧ other.text = dest.text ++ ".meta"

/-- The four sidecars of two destinations are four files, and none of the first destination is
the second. -/
def SidecarsApart (dest other : GuestPath) : Prop :=
  [dest.partPath, dest.metaPath, other.partPath, other.metaPath].Nodup ∧
    dest.partPath ≠ other.text ∧ dest.metaPath ≠ other.text

variable {dest other : GuestPath}

theorem partPath_of_part (part : guestUploadPartSuffix <:+ dest.text) :
    dest.partPath = dest.text := if_pos (dest.isPart_iff.mpr part)

theorem partPath_of_not_part (plain : ¬guestUploadPartSuffix <:+ dest.text) :
    dest.partPath = dest.text ++ guestUploadPartSuffix :=
  if_neg fun part => plain (dest.isPart_iff.mp part)

/-- Another destination is the part file only where it is the destination with the suffix. -/
theorem partPath_eq_text_iff (distinct : dest.text ≠ other.text) :
    dest.partPath = other.text ↔ other.IsPartOf dest := by
  by_cases part : guestUploadPartSuffix <:+ dest.text
  · rw [partPath_of_part part]
    exact ⟨fun same => absurd same distinct, fun named => absurd part named.1⟩
  · rw [partPath_of_not_part part]
    exact ⟨fun same => ⟨part, same.symm⟩, fun named => named.2.symm⟩

theorem metaPath_eq_text_iff : dest.metaPath = other.text ↔ other.IsMetaOf dest := by
  unfold metaPath IsMetaOf
  by_cases part : guestUploadPartSuffix <:+ dest.text
  · rw [partPath_of_part part]
    exact ⟨fun same => Or.inr ⟨part, same.symm⟩,
      fun named => (named.resolve_left fun plain => plain.1 part).2.symm⟩
  · rw [partPath_of_not_part part, List.append_assoc]
    exact ⟨fun same => Or.inl ⟨part, same.symm⟩,
      fun named => (named.resolve_right fun named => part named.1).2.symm⟩

/-- Two destinations share a part file only where one is the part file of the other. -/
theorem partPath_eq_iff_isPartOf (distinct : dest.text ≠ other.text) :
    dest.partPath = other.partPath ↔ other.IsPartOf dest ∨ dest.IsPartOf other := by
  by_cases part : guestUploadPartSuffix <:+ other.text
  · rw [partPath_of_part part, partPath_eq_text_iff distinct]
    exact ⟨Or.inl, fun named => named.resolve_right fun named => named.1 part⟩
  · by_cases mine : guestUploadPartSuffix <:+ dest.text
    · rw [partPath_of_part mine, eq_comm, partPath_eq_text_iff distinct.symm]
      exact ⟨Or.inr, fun named => named.resolve_left fun named => named.1 mine⟩
    · rw [partPath_of_not_part part, partPath_of_not_part mine, List.append_left_inj]
      refine ⟨fun same => absurd same distinct, ?_⟩
      rintro (⟨-, named⟩ | ⟨-, named⟩)
      · exact absurd (named ▸ List.suffix_append _ _) part
      · exact absurd (named ▸ List.suffix_append _ _) mine

theorem sidecarsApart_iff (distinct : dest.text ≠ other.text) :
    dest.SidecarsApart other ↔
      ¬other.IsPartOf dest ∧ ¬dest.IsPartOf other ∧ ¬other.IsMetaOf dest := by
  have own := dest.metaPath_ne_partPath.symm
  have others := other.metaPath_ne_partPath.symm
  have cross := dest.partPath_ne_metaPath other
  have back := (other.partPath_ne_metaPath dest).symm
  unfold SidecarsApart
  simp only [List.nodup_cons, List.mem_cons, List.not_mem_nil, or_false, not_or, ne_eq, own,
    others, cross, back, metaPath_eq_iff, partPath_eq_iff_isPartOf distinct,
    partPath_eq_text_iff distinct, metaPath_eq_text_iff, not_false_eq_true, List.nodup_nil,
    and_true, true_and]
  tauto

end GuestPath

/-! ## Looking for part files -/

def guestUploadPartMaxAgeMs : Nat := 14 * 24 * 60 * 60 * 1000

/-- One name that `readdir` lists, with the attributes that are read. -/
structure ListedFile where
  filename : Text
  single : '/' ∉ filename
  size : Option Nat
  mtime : Option Nat

namespace ListedFile

/-- The name without the suffix of part files. -/
def destName (item : ListedFile) : Text :=
  item.filename.take (item.filename.length - guestUploadPartSuffix.length)

/-- The item is not passed over. -/
def named (item : ListedFile) : Bool :=
  isGuestUploadPartName item.filename && item.destName ≠ []

/-- `mtime` in milliseconds; none for a time of 0. -/
def mtimeMs (item : ListedFile) : Option Nat :=
  match item.mtime with
  | none | some 0 => none
  | some n => some (n * 1000)

def tooOld (now : Nat) (item : ListedFile) : Bool :=
  match item.mtimeMs with
  | some mtime => guestUploadPartMaxAgeMs < now - mtime
  | none => false

end ListedFile

structure GuestUploadPartial where
  name : Text
  path : Text
  partSize : Nat
  mtime : Option Nat
  identity : Option GuestUploadIdentity

/-- What `readUploadMeta` reads at each path, and the paths that were unlinked. -/
structure SidecarDisk where
  identity : Text → Option GuestUploadIdentity
  unlinked : List Text

def unlinkQuiet (path : Text) : Program SidecarDisk String Unit :=
  call fun disk => .ok ((), { disk with
    identity := fun other => if other = path then none else disk.identity other
    unlinked := disk.unlinked ++ [path] })

/-- A path that is computed, or the error of the computation. -/
def pathOf (path : Except String Text) : Program SidecarDisk String Text :=
  match path with
  | .ok path => result path
  | .error message => fail message

def clearUploadSidecars (destPath : Text) : Program SidecarDisk String Unit :=
  (pathOf (guestUploadPartPath destPath)).andThen fun part =>
    (unlinkQuiet part).andThen fun _ =>
      (pathOf (guestUploadMetaPath destPath)).andThen fun meta_ => unlinkQuiet meta_

/-- An error of the path or of the file is no identity. -/
def readUploadMeta (destPath : Text) : Program SidecarDisk String (Option GuestUploadIdentity) :=
  ((pathOf (guestUploadMetaPath destPath)).andThen fun path =>
    call fun disk => .ok (disk.identity path, disk)).rescue fun _ => result none

/-- One pass of the loop. -/
def collectItem (now : Nat) (dir : Text) (item : ListedFile) :
    Program SidecarDisk String (Option GuestUploadPartial) :=
  if !item.named then result none
  else
    (pathOf (resolveGuestPath dir item.destName)).andThen fun destPath =>
      if item.tooOld now then (clearUploadSidecars destPath).andThen fun _ => result none
      else
        (readUploadMeta destPath).andThen fun identity =>
          result (some ⟨item.destName, destPath, item.size.getD 0, item.mtimeMs, identity⟩)

/-- `collectUploadPartials` on what `readdir` lists. -/
def collectUploadPartials (now : Nat) (dir : Text) :
    List ListedFile → Program SidecarDisk String (List GuestUploadPartial)
  | [] => result []
  | item :: rest =>
      (collectItem now dir item).andThen fun found =>
        (collectUploadPartials now dir rest).andThen fun others => result (found.toList ++ others)

/-! ## What is unlinked -/

/-- The file of a name in a directory. -/
def childPath (dir : GuestPath) (name : Text) : Text :=
  (if dir.text = "/" then [] else dir.text) ++ '/' :: name

namespace ListedFile

/-- A part file that is listed as expired. -/
def Expired (now : Nat) (item : ListedFile) : Prop := item.named = true ∧ item.tooOld now = true

instance (now : Nat) : DecidablePred (Expired now) := fun _ => inferInstanceAs (Decidable (_ ∧ _))

/-- The search goes on behind the item. -/
def resolves (dir : GuestPath) (item : ListedFile) : Bool :=
  match resolveGuestPath dir.text item.destName with
  | .ok _ => true
  | .error _ => !item.named

/-- The item has this path unlinked. -/
def Clears (now : Nat) (dir : GuestPath) (item : ListedFile) (gone : Text) : Prop :=
  item.Expired now ∧ ∃ path : GuestPath, resolveGuestPath dir.text item.destName = .ok path.text ∧
    (gone = path.partPath ∨ gone = path.metaPath)

end ListedFile

/-- The items up to the first one without a path, which ends the search. -/
def reached (dir : GuestPath) (listing : List ListedFile) : List ListedFile :=
  listing.takeWhile (ListedFile.resolves dir)

section Collect

variable {now : Nat} {dir : GuestPath} {item : ListedFile} {disk : SidecarDisk}

/-- Both sidecars are unlinked. -/
theorem clearUploadSidecars_run (path : GuestPath) : ∃ later : SidecarDisk,
    clearUploadSidecars path.text disk = (.ok (), later) ∧
      later.unlinked = disk.unlinked ++ [path.partPath, path.metaPath] := by
  unfold clearUploadSidecars pathOf
  rw [path.guestUploadPartPath_eq, path.guestUploadMetaPath_eq]
  exact ⟨_, rfl, List.append_assoc _ _ _⟩

theorem readUploadMeta_run (path : GuestPath) : ∃ identity,
    readUploadMeta path.text disk = (.ok identity, disk) := by
  unfold readUploadMeta pathOf
  rw [path.guestUploadMetaPath_eq]
  exact ⟨_, rfl⟩

/-- One pass stops the search without a path, and unlinks what the item clears. -/
theorem collectItem_run (now : Nat) (dir : GuestPath) (item : ListedFile) (disk : SidecarDisk) :
    (item.resolves dir = false ∧ ∃ message,
        collectItem now dir.text item disk = (.error message, disk)) ∨
      (item.resolves dir = true ∧ ∃ found later,
        collectItem now dir.text item disk = (.ok found, later) ∧
          ∀ gone, gone ∈ later.unlinked ↔ gone ∈ disk.unlinked ∨ item.Clears now dir gone) := by
  unfold collectItem ListedFile.resolves
  cases named : item.named with
  | false =>
      refine Or.inr ⟨?_, none, disk, rfl, fun gone => ?_⟩
      · split <;> rfl
      · refine (or_iff_left ?_).symm
        rintro ⟨⟨counts, -⟩, -⟩
        rw [named] at counts
        cases counts
  | true =>
      cases resolved : resolveGuestPath dir.text item.destName with
      | error message => exact Or.inl ⟨rfl, message, rfl⟩
      | ok text =>
          let path : GuestPath := ⟨text, resolveGuestPath_resolved resolved⟩
          refine Or.inr ⟨rfl, ?_⟩
          by_cases old : item.tooOld now = true
          · obtain ⟨later, cleared, unlinked⟩ := @clearUploadSidecars_run disk path
            refine ⟨none, later, ?_, fun gone => ?_⟩
            · rw [Bool.not_true, if_neg Bool.false_ne_true]
              refine andThen_eq_ok.mpr ⟨text, disk, rfl, ?_⟩
              rw [if_pos old]
              exact andThen_eq_ok.mpr ⟨(), later, cleared, rfl⟩
            · rw [unlinked, List.mem_append]
              refine or_congr_right ⟨fun listed => ?_, ?_⟩
              · have either : gone = path.partPath ∨ gone = path.metaPath := by simpa using listed
                exact ⟨⟨named, old⟩, path, resolved, either⟩
              · rintro ⟨-, other, found, either⟩
                have same : other.text = text := by
                  rw [resolved] at found
                  exact (Except.ok.inj found).symm
                obtain rfl : other = path := by
                  obtain ⟨_, _⟩ := other
                  subst same
                  rfl
                simpa using either
          · obtain ⟨identity, read⟩ := @readUploadMeta_run disk path
            refine ⟨some ⟨item.destName, text, item.size.getD 0, item.mtimeMs, identity⟩, disk, ?_,
              fun gone => ?_⟩
            · rw [Bool.not_true, if_neg Bool.false_ne_true]
              refine andThen_eq_ok.mpr ⟨text, disk, rfl, ?_⟩
              rw [if_neg old]
              exact andThen_eq_ok.mpr ⟨identity, disk, read, rfl⟩
            · exact (or_iff_left fun clears => old clears.1.2).symm

/-- A program that only computes with an answer leaves the state of the answer. -/
theorem andThen_result_state {σ ε α β : Type} {p : Program σ ε α} {f : α → β} {s : σ} :
    (p.andThen (fun a => result (f a)) s).2 = (p s).2 := by
  unfold andThen
  rcases p s with ⟨outcome, t⟩
  cases outcome <;> rfl

/-- What the whole search unlinks. -/
theorem mem_unlinked_iff (now : Nat) (dir : GuestPath) (listing : List ListedFile)
    (disk : SidecarDisk) (gone : Text) :
    gone ∈ (collectUploadPartials now dir.text listing disk).2.unlinked ↔
      gone ∈ disk.unlinked ∨ ∃ item ∈ reached dir listing, item.Clears now dir gone := by
  induction listing generalizing disk with
  | nil => exact (or_iff_left fun ⟨_, member, _⟩ => absurd member List.not_mem_nil).symm
  | cons item rest ih =>
      unfold collectUploadPartials reached
      rcases collectItem_run now dir item disk with ⟨stops, _, run⟩ | ⟨goes, _, later, run, each⟩
      · rw [List.takeWhile_cons_of_neg (by rw [stops]; exact Bool.false_ne_true), andThen, run]
        exact (or_iff_left fun ⟨_, member, _⟩ => absurd member List.not_mem_nil).symm
      · rw [List.takeWhile_cons_of_pos goes, andThen, run]
        dsimp only
        rw [andThen_result_state, ih later, each gone]
        simp only [List.mem_cons, exists_eq_or_imp, or_assoc]
        rfl

end Collect

/-! ## Names that stay -/

/-- The name of the part file beside a name. -/
def partName (name : Text) : Text :=
  if guestUploadPartSuffix <:+ name then name else name ++ guestUploadPartSuffix

/-- The search unlinks only part files that it has listed as expired, and their metadata. -/
def CollectsOwn (now : Nat) (dir : GuestPath) (listing : List ListedFile) : Prop :=
  ∀ identity, ∀ gone ∈ (collectUploadPartials now dir.text listing ⟨identity, []⟩).2.unlinked,
    ∃ item ∈ listing, item.Expired now ∧
      (gone = childPath dir item.filename ∨ gone = childPath dir item.filename ++ ".meta")

/-- Every expired item that is reached leads to a name in the directory whose part file is an
expired item, too. -/
def LeadsToOwn (now : Nat) (dir : GuestPath) (listing : List ListedFile) : Prop :=
  ∀ item ∈ reached dir listing, item.Expired now →
    ∀ path, resolveGuestPath dir.text item.destName = .ok path →
      ∃ name, path = childPath dir name ∧
        ∃ other ∈ listing, other.Expired now ∧ other.filename = partName name

section Names

variable {now : Nat} {dir path : GuestPath} {item : ListedFile} {name : Text}

theorem childPath_suffix_iff : guestUploadPartSuffix <:+ childPath dir name ↔
    guestUploadPartSuffix <:+ name :=
  suffix_append_cons_iff (by decide)

theorem partPath_of_child (child : path.text = childPath dir name) :
    path.partPath = childPath dir (partName name) := by
  unfold partName
  by_cases part : guestUploadPartSuffix <:+ name
  · rw [if_pos part, ← child]
    exact GuestPath.partPath_of_part (child ▸ childPath_suffix_iff.mpr part)
  · have plain : ¬guestUploadPartSuffix <:+ path.text := by
      rw [child, childPath_suffix_iff]
      exact part
    rw [if_neg part, GuestPath.partPath_of_not_part plain, child, childPath, childPath,
      List.append_assoc, List.cons_append]

theorem filename_eq (named : item.named = true) :
    item.filename = item.destName ++ guestUploadPartSuffix := by
  obtain ⟨front, cut⟩ := isGuestUploadPartName_iff.mp (Bool.and_eq_true_iff.mp named).1
  rw [ListedFile.destName, ← cut, List.length_append, Nat.add_sub_cancel, List.take_left]

/-- Only a name in the directory has its part file there. -/
theorem child_of_partPath (named : item.named = true)
    (found : path.partPath = childPath dir item.filename) :
    ∃ name, path.text = childPath dir name ∧ item.filename = partName name := by
  have form := filename_eq named
  have suffix : guestUploadPartSuffix <:+ item.filename := form ▸ List.suffix_append _ _
  by_cases mine : guestUploadPartSuffix <:+ path.text
  · refine ⟨item.filename, ?_, (if_pos suffix).symm⟩
    rw [← found, GuestPath.partPath_of_part mine]
  · have child : path.text = childPath dir item.destName := by
      rw [GuestPath.partPath_of_not_part mine, form, childPath, ← List.cons_append,
        ← List.append_assoc, List.append_left_inj] at found
      exact found
    refine ⟨item.destName, child, ?_⟩
    rw [partName, if_neg, form]
    rw [← @childPath_suffix_iff dir, ← child]
    exact mine

/-- Behind the last slash of a directory's path stands a segment, except at the root. -/
theorem joinedPath_child (proper : name ≠ []) (single : startsWith name "/" = false) :
    joinedPath dir.text name = childPath dir name := by
  have stripped : (dir.text.reverse.dropWhile (· = '/')).reverse =
      if dir.text = "/" then [] else dir.text := by
    obtain ⟨parts, segments, form, -⟩ := resolveGuestPath_segments dir.resolved
    rcases List.eq_nil_or_concat parts with rfl | ⟨init, last, rfl⟩
    · rw [form]
      rfl
    · obtain ⟨some_char, -, -, chars⟩ := segments last (by simp)
      obtain ⟨seg, c, rfl⟩ := (List.eq_nil_or_concat last).resolve_left some_char
      have ends : ∃ front, dir.text = front ++ [c] := by
        rw [form]
        by_cases only : init = []
        · exact ⟨'/' :: seg, by rw [only]; simp [join]⟩
        · exact ⟨'/' :: (join '/' init ++ '/' :: seg), by
            simp [join_append only (List.cons_ne_nil _ []), join]⟩
      obtain ⟨front, ends⟩ := ends
      have other : c ≠ '/' := (chars c (by simp)).1
      have below : dir.text ≠ "/" := by
        rw [ends]
        intro root
        have last_char := congrArg List.getLast? root
        rw [List.getLast?_concat] at last_char
        exact other (Option.some.inj last_char)
      rw [if_neg below, ends, List.reverse_append, List.reverse_cons, List.reverse_nil,
        List.nil_append, List.singleton_append,
        List.dropWhile_cons_of_neg (by simpa using other), List.reverse_cons,
        List.reverse_reverse]
  obtain ⟨rest, starts⟩ := dir.starts
  have given : dir.text ≠ [] := starts ▸ List.cons_ne_nil '/' rest
  unfold joinedPath childPath
  rw [if_neg given, if_neg proper, single, if_neg Bool.false_ne_true, stripped,
    List.append_assoc]
  rfl

/-- The path of a plain name in a directory. -/
theorem resolveGuestPath_child {text : Text} (plain : PlainSegment name)
    (done : resolveGuestPath dir.text name = .ok text) : text = childPath dir name := by
  obtain ⟨parts, segments, form, -⟩ := resolveGuestPath_segments dir.resolved
  have child : childPath dir name = '/' :: join '/' (parts ++ [name]) := by
    unfold childPath
    rw [form]
    by_cases root : parts = []
    · rw [root]
      rfl
    · have below : '/' :: join '/' parts ≠ "/" := by
        intro same
        have empty : join '/' parts = [] := (List.cons_eq_cons.mp same).2
        obtain ⟨word, words, rfl⟩ := List.exists_cons_of_ne_nil root
        obtain ⟨some_char, -⟩ := segments word List.mem_cons_self
        cases words with
        | nil => exact some_char empty
        | cons next words => cases word <;> simp_all [join]
      rw [if_neg below, join_append root (List.cons_ne_nil name [])]
      rfl
  have single : startsWith name "/" = false := by
    cases name with
    | nil => rfl
    | cons c rest =>
        have other : c ≠ '/' := (plain.2.2.2 c List.mem_cons_self).1
        simp [startsWith, List.isPrefixOf, other.symm]
  have given : childPath dir name ≠ [] := child ▸ List.cons_ne_nil _ _
  have joined : joinedPath dir.text name = joinedPath (childPath dir name) [] := by
    rw [joinedPath_child plain.1 single, joinedPath, if_neg given, if_pos rfl]
  have same : resolveGuestPath dir.text name = resolveGuestPath (childPath dir name) [] := by
    unfold resolveGuestPath
    rw [joined]
  have all : ∀ seg ∈ parts ++ [name], PlainSegment seg := by
    intro seg member
    rcases List.mem_append.mp member with old | new
    · exact segments seg old
    · rwa [List.mem_singleton.mp new]
  rw [same, child, resolveGuestPath_of_segments all] at done
  split at done
  · cases done
  · rw [child, Except.ok.inj done]

theorem collectUploadPartials_own_iff (now : Nat) (dir : GuestPath) (listing : List ListedFile) :
    CollectsOwn now dir listing ↔ LeadsToOwn now dir listing := by
  constructor
  · intro own item member old text resolved
    let path : GuestPath := ⟨text, resolveGuestPath_resolved resolved⟩
    have gone := (mem_unlinked_iff now dir listing ⟨fun _ => none, []⟩ path.partPath).mpr
      (Or.inr ⟨item, member, old, path, resolved, Or.inl rfl⟩)
    obtain ⟨other, listed, expired, same | same⟩ := own _ _ gone
    · obtain ⟨name, child, named⟩ := child_of_partPath expired.1 same
      exact ⟨name, child, other, listed, expired, named⟩
    · have behind : (".meta" : Text) <:+ path.partPath := same ▸ List.suffix_append _ _
      have ends := path.partPath_suffix.getLast (by decide)
      rw [← behind.getLast (by decide)] at ends
      exact absurd ends (by decide)
  · intro leads identity gone unlinked
    obtain ⟨item, member, old, path, resolved, either⟩ :=
      ((mem_unlinked_iff now dir listing _ gone).mp unlinked).resolve_left List.not_mem_nil
    obtain ⟨name, child, other, listed, expired, named⟩ := leads item member old _ resolved
    have part := partPath_of_child child
    refine ⟨other, listed, expired, ?_⟩
    rw [named]
    rcases either with rfl | rfl
    · exact Or.inl part
    · exact Or.inr (by rw [GuestPath.metaPath, part])

/-- Where the expired part files have plain names that carry the suffix once, all is well. -/
theorem leadsToOwn_of_plain {listing : List ListedFile}
    (plain : ∀ item ∈ listing, item.Expired now →
      PlainSegment item.destName ∧ ¬guestUploadPartSuffix <:+ item.destName) :
    LeadsToOwn now dir listing := by
  intro item member old path resolved
  have listed : item ∈ listing := (List.takeWhile_subset _) member
  obtain ⟨proper, once⟩ := plain item listed old
  refine ⟨item.destName, resolveGuestPath_child proper resolved, item, listed, old, ?_⟩
  rw [partName, if_neg once]
  exact filename_eq old.1

end Names

/-- The sidecars of two destinations keep apart unless one carries the suffix of the other's
sidecar; a search unlinks only its own expired part files when each of them leads to one. -/
theorem sidecars_and_search_iff (dest other : GuestPath) (distinct : dest.text ≠ other.text)
    (now : Nat) (dir : GuestPath) (listing : List ListedFile) :
    (dest.SidecarsApart other ↔
      ¬other.IsPartOf dest ∧ ¬dest.IsPartOf other ∧ ¬other.IsMetaOf dest) ∧
    (CollectsOwn now dir listing ↔ LeadsToOwn now dir listing) :=
  ⟨GuestPath.sidecarsApart_iff distinct, collectUploadPartials_own_iff now dir listing⟩

/-- The part file of the note, as a destination of its own. -/
def notePart : GuestPath := ⟨"/note.proxora-part", by decide +kernel⟩

def rootDir : GuestPath := ⟨"/", by decide⟩

/-- A part file of the year 1970 in an example. -/
def oldPart (name : Text) (single : '/' ∉ name ++ guestUploadPartSuffix) : ListedFile :=
  ⟨name ++ guestUploadPartSuffix, single, some 3, some 1⟩

theorem sidecars_and_search_named :
    ¬note.SidecarsApart notePart ∧
      CollectsOwn (2 * guestUploadPartMaxAgeMs) rootDir [oldPart "a" (by decide)] := by
  have both := sidecars_and_search_iff note notePart (by decide) (2 * guestUploadPartMaxAgeMs)
    rootDir [oldPart "a" (by decide)]
  refine ⟨fun apart => (both.1.mp apart).1 ⟨by decide +kernel, rfl⟩,
    both.2.mpr (leadsToOwn_of_plain ?_)⟩
  intro item member _
  obtain rfl := List.mem_singleton.mp member
  have name : (oldPart "a" (by decide)).destName = ['a'] := by decide +kernel
  rw [name]
  refine ⟨⟨by decide, by decide, by decide, fun c inside => ?_⟩, by decide +kernel⟩
  obtain rfl := List.mem_singleton.mp inside
  decide

/-- An upload to the part file of another one, and a listed name with two suffixes. -/
theorem suffixed_names_collide :
    ¬note.SidecarsApart notePart ∧
      ¬CollectsOwn (2 * guestUploadPartMaxAgeMs) rootDir [oldPart "a.proxora-part" (by decide)] := by
  constructor
  · rintro ⟨-, other, -⟩
    exact other (by decide +kernel)
  · intro own
    obtain ⟨item, member, -, same | same⟩ := own (fun _ => none) "/a.proxora-part" (by decide +kernel)
    · obtain rfl := List.mem_singleton.mp member
      revert same
      decide +kernel
    · obtain rfl := List.mem_singleton.mp member
      revert same
      decide +kernel

end Proxora
