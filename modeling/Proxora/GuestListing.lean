import Proxora.Ecma.Doubles
import Proxora.Ecma.LineBreaks
import Proxora.Ecma.Utf8
import Proxora.GuestPathAlgebra

/-!
# Directory listings of a guest

`parseGuestListOutput` of `lib/guest-files.ts`, and what the two commands of `listDir` write for a
directory. Neither format quotes names: `listing_iff` says for which directories the parser gives
them back.
-/

namespace Proxora

open Ecma

/-! ## The parser -/

inductive GuestFileKind : Type
  | file
  | dir
  | other
deriving DecidableEq

structure GuestFileEntry where
  name : Text
  path : Text
  type : GuestFileKind
  size : Double
  mtime : Option Double
deriving DecidableEq

/-- An entry without its path. -/
structure LineFile where
  name : Text
  type : GuestFileKind
  size : Double
  mtime : Option Double
deriving DecidableEq

/-- `Number.isFinite(size) ? size : 0`. -/
def listedSize (text : Text) : Double :=
  match numberOfText text with
  | .finite size => .finite size
  | _ => .finite 0

/-- Milliseconds, for a finite positive number of seconds. -/
def listedMtime (text : Text) : Option Double :=
  match numberOfText text with
  | .finite seconds =>
      if 0 < seconds then
        match nearestPositive (seconds * 1000) with
        | .finite ms => some (.finite (ms + mkRat 1 2).floor)
        | far => some far
      else none
  | _ => none

/-- A line of `find`. -/
def tabbedFile (kind size mtime name : Text) : LineFile where
  name := name
  type := if kind = "d" then .dir else if kind = "f" ∨ kind = "l" then .file else .other
  size := listedSize size
  mtime := listedMtime mtime

/-- A line of `ls`, with the mark of the kind behind the name. -/
def markedFile (line : Text) : LineFile :=
  if line.getLast? = some '/' then ⟨line.dropLast, .dir, .finite 0, none⟩
  else if line.getLast? = some '@' ∨ line.getLast? = some '|' ∨ line.getLast? = some '=' then
    ⟨line.dropLast, .other, .finite 0, none⟩
  else if line.getLast? = some '*' then ⟨line.dropLast, .file, .finite 0, none⟩
  else ⟨line, .file, .finite 0, none⟩

def lineFile (line : Text) : LineFile :=
  match split '\t' line with
  | kind :: size :: mtime :: first :: rest =>
      if utf16Length kind = 1 then tabbedFile kind size mtime (join '\t' (first :: rest))
      else markedFile line
  | _ => markedFile line

/-- Lines without a name are passed over. -/
def readListLine (line : Text) : Option LineFile :=
  if line = [] then none
  else
    let file := lineFile line
    if file.name = [] ∨ file.name = "." ∨ file.name = ".." then none else some file

/-- One line; the names so far are those of the entries. -/
def addListed (dir : Text) (entries : List GuestFileEntry) (raw : Text) :
    Except String (List GuestFileEntry) :=
  match readListLine (dropCr raw) with
  | none => .ok entries
  | some file =>
      match resolveGuestPath dir file.name with
      | .error message => .error message
      | .ok path =>
          .ok (if entries.any fun entry => entry.name = file.name then entries
            else entries ++ [⟨file.name, path, file.type, file.size, file.mtime⟩])

/-- Directories come first; `compare` is `localeCompare`. -/
def listedBefore (compare : Text → Text → Int) (a b : GuestFileEntry) : Bool :=
  if a.type = .dir ∧ b.type ≠ .dir then true
  else if a.type ≠ .dir ∧ b.type = .dir then false
  else compare a.name b.name ≤ 0

def parseGuestListOutput (compare : Text → Text → Int) (text dir : Text) :
    Except String (List GuestFileEntry) :=
  ((splitLines text).foldlM (addListed dir) []).map fun entries =>
    entries.mergeSort (listedBefore compare)

/-! ## Directories -/

/-- The kinds that `find` tells apart. -/
inductive FileKind : Type
  | regular
  | directory
  | link
  | block
  | character
  | pipe
  | socket
deriving DecidableEq

def FileKind.letter : FileKind → Char
  | regular => 'f'
  | directory => 'd'
  | link => 'l'
  | block => 'b'
  | character => 'c'
  | pipe => 'p'
  | socket => 's'

/-- An entry of a directory. Its name is made of bytes; the time is what `find` writes for it. -/
structure DirectoryEntry where
  name : List UInt8
  kind : FileKind
  size : Nat
  stamp : Text
  given : name ≠ []
  legal : ∀ b ∈ name, b ≠ 0 ∧ b ≠ 47
  noDots : name ≠ [46] ∧ name ≠ [46, 46]
  decimal : ∀ c ∈ stamp, c.isDigit ∨ c = '.' ∨ c = '-'

structure Directory where
  entries : List DirectoryEntry
  distinct : (entries.map (·.name)).Nodup

/-- `find -printf '%y\t%s\t%T@\t%f\n'` and `ls -1Ap`. -/
inductive ListFormat : Type
  | find
  | ls
deriving DecidableEq

namespace DirectoryEntry

/-- What stands before the name. -/
def front (entry : DirectoryEntry) : ListFormat → Text
  | .find =>
      entry.kind.letter :: '\t' :: ((toString entry.size : String).toList ++
        '\t' :: (entry.stamp ++ ['\t']))
  | .ls => []

/-- What stands behind the name; `ls` appends a slash to directories only. -/
def back (entry : DirectoryEntry) : ListFormat → Text
  | .find => []
  | .ls => if entry.kind = .directory then ['/'] else []

def line (format : ListFormat) (entry : DirectoryEntry) : List UInt8 :=
  utf8Encode (entry.front format) ++ entry.name ++ utf8Encode (entry.back format) ++ [10]

end DirectoryEntry

/-- What the command writes, and its text. -/
def Directory.output (directory : Directory) (format : ListFormat) : Text :=
  utf8Text (directory.entries.flatMap (DirectoryEntry.line format))

/-- The names on the way along a path. -/
def pathNames (path : Text) : List (List UInt8) :=
  ((split '/' path).filter (· ≠ [])).map utf8Encode

/-- The entry with its name, its type and a path that leads to it in the directory. -/
structure DirectoryEntry.ShownAs (dir : Text) (entry : DirectoryEntry) (shown : GuestFileEntry) :
    Prop where
  name : utf8Encode shown.name = entry.name
  type : shown.type = .dir ↔ entry.kind = .directory
  path : pathNames shown.path = pathNames dir ++ [entry.name]

/-- The listing shows each entry once, and nothing else. -/
def Directory.Shown (compare : Text → Text → Int) (dir : GuestPath) (directory : Directory)
    (format : ListFormat) : Prop :=
  ∃ entries listed, parseGuestListOutput compare (directory.output format) dir.text = .ok entries ∧
    listed.Perm entries ∧ List.Forall₂ (DirectoryEntry.ShownAs dir.text) directory.entries listed

/-- A line that the parser takes for one of `find`. -/
def Tabbed (line : Text) : Prop :=
  ∃ kind size mtime rest, split '\t' line = kind :: size :: mtime :: rest ∧ rest ≠ [] ∧
    utf16Length kind = 1

/-- A name that the format carries: it is a text without line breaks and backslashes, the path is
not too long, no carriage return ends a line, and with `ls` nothing of a line looks like a mark or
like a line of `find`. -/
structure Carries (format : ListFormat) (dir : Text) (entry : DirectoryEntry) (name : Text) :
    Prop where
  text : entry.name = utf8Encode name
  noBreak : '\n' ∉ name
  noBackslash : '\\' ∉ name
  short : utf16Length (joinedPath dir name) ≤ guestFileMaxPath
  noReturn : format = .find ∨ entry.kind ≠ .directory → name.getLast? ≠ some '\r'
  noMark : format = .ls → entry.kind ≠ .directory →
    name.getLast? ≠ some '@' ∧ name.getLast? ≠ some '|' ∧ name.getLast? ≠ some '=' ∧
      name.getLast? ≠ some '*'
  noTabs : format = .ls → ¬Tabbed (name ++ entry.back .ls)

variable {entry : DirectoryEntry} {format : ListFormat} {dir : GuestPath}
  {compare : Text → Text → Int}

/-! ## What a command writes -/

namespace DirectoryEntry

/-- The line of an entry as a text. -/
def shownLine (format : ListFormat) (entry : DirectoryEntry) : Text :=
  entry.front format ++ (utf8Text entry.name ++ entry.back format)

theorem utf8Text_line (rest : List UInt8) :
    utf8Text (entry.line format ++ rest) = entry.shownLine format ++ ['\n'] ++ utf8Text rest := by
  have close (bytes : List UInt8) : utf8Run none (bytes ++ 10 :: rest) =
      utf8Run none bytes ++ '\n' :: utf8Run none rest :=
    utf8Run_append_ascii bytes (by decide)
  have named : utf8Run none (entry.name ++ (utf8Encode (entry.back format) ++ 10 :: rest)) =
      utf8Text entry.name ++ (entry.back format ++ '\n' :: utf8Text rest) := by
    by_cases marked : entry.back format = []
    · rw [marked]
      exact close entry.name
    · have slash : entry.back format = ['/'] := by
        cases format with
        | find => exact absurd rfl marked
        | ls =>
            rw [back] at marked ⊢
            split
            · rfl
            · next other => exact absurd (if_neg other) marked
      have byte : utf8Encode ['/'] = [47] := by decide
      rw [slash, byte, List.singleton_append, utf8Run_append_ascii entry.name (by decide)]
      exact congrArg (utf8Run none entry.name ++ '/' :: ·) (close [])
  rw [utf8Text, line, List.append_assoc, List.append_assoc, List.append_assoc,
    utf8Run_utf8Encode, List.singleton_append, named, shownLine]
  simp only [List.append_assoc, List.singleton_append]

end DirectoryEntry

/-- The text of a listing is its lines. -/
theorem Directory.output_eq (directory : Directory) (format : ListFormat) :
    directory.output format =
      (directory.entries.map (DirectoryEntry.shownLine format)).flatMap (· ++ ['\n']) := by
  rw [output]
  induction directory.entries with
  | nil => rfl
  | cons entry rest ih =>
      rw [List.flatMap_cons, DirectoryEntry.utf8Text_line, ih, List.map_cons, List.flatMap_cons]

/-! ## The loop over the lines -/

/-- The file of a raw line. -/
def rawFile (raw : Text) : Option LineFile := readListLine (dropCr raw)

/-- What a line adds: nothing, or the entry of its file. -/
theorem addListed_cases {entries after : List GuestFileEntry} {raw dir : Text}
    (added : addListed dir entries raw = .ok after) :
    (after = entries) ∨ ∃ file path, rawFile raw = some file ∧
      resolveGuestPath dir file.name = .ok path ∧
      after = entries ++ [⟨file.name, path, file.type, file.size, file.mtime⟩] := by
  rw [addListed] at added
  cases read : readListLine (dropCr raw) with
  | none =>
      rw [read] at added
      exact .inl (Except.ok.inj added).symm
  | some file =>
      rw [read] at added
      dsimp only at added
      cases resolved : resolveGuestPath dir file.name with
      | error message =>
          rw [resolved] at added
          cases added
      | ok path =>
          rw [resolved] at added
          dsimp only at added
          split at added
          · exact .inl (Except.ok.inj added).symm
          · exact .inr ⟨file, path, read, resolved, (Except.ok.inj added).symm⟩

/-- The entries are files of the lines in their order, some of which may be left out, and their
paths are resolved. -/
theorem foldlM_addListed {raws : List Text} {entries after : List GuestFileEntry} {dir : Text}
    (done : raws.foldlM (addListed dir) entries = .ok after) :
    ∃ more, after = entries ++ more ∧
      (more.map (·.name)).Sublist ((raws.filterMap rawFile).map (·.name)) ∧
      ∀ entry ∈ more, resolveGuestPath dir entry.name = .ok entry.path := by
  induction raws generalizing entries with
  | nil => exact ⟨[], by rw [List.append_nil]; exact (Except.ok.inj done).symm,
      List.Sublist.refl _, nofun⟩
  | cons raw rest ih =>
      rw [List.foldlM_cons] at done
      cases added : addListed dir entries raw with
      | error message =>
          rw [added] at done
          cases done
      | ok between =>
          rw [added] at done
          obtain ⟨more, rfl, inside, paths⟩ := ih done
          rcases addListed_cases added with rfl | ⟨file, path, read, resolved, rfl⟩
          · refine ⟨more, rfl, ?_, paths⟩
            cases read : rawFile raw with
            | none =>
                rw [List.filterMap_cons_none read]
                exact inside
            | some file =>
                rw [List.filterMap_cons_some read, List.map_cons]
                exact inside.cons _
          · refine ⟨_ :: more, List.append_assoc _ _ _, ?_, ?_⟩
            · rw [List.filterMap_cons_some read, List.map_cons, List.map_cons]
              exact inside.cons_cons _
            · exact List.forall_mem_cons.mpr ⟨resolved, paths⟩

/-- Lines with files of different names that all have a path. -/
theorem foldlM_addListed_of_paths {α : Type} {items : List α} {raw : α → Text} {dir : Text}
    {shown : α → GuestFileEntry}
    (files : ∀ item ∈ items, ∃ file path, rawFile (raw item) = some file ∧
      resolveGuestPath dir file.name = .ok path ∧
      shown item = ⟨file.name, path, file.type, file.size, file.mtime⟩)
    (distinct : (items.map fun item => (shown item).name).Nodup) {entries : List GuestFileEntry}
    (new : ∀ item ∈ items, ∀ entry ∈ entries, entry.name ≠ (shown item).name) :
    (items.map raw).foldlM (addListed dir) entries = .ok (entries ++ items.map shown) := by
  induction items generalizing entries with
  | nil =>
      rw [List.map_nil, List.map_nil, List.append_nil]
      rfl
  | cons item rest ih =>
      obtain ⟨file, path, read, resolved, form⟩ := files item List.mem_cons_self
      have fresh : (entries.any fun entry => entry.name = file.name) = false := by
        rw [List.any_eq_false]
        intro entry listed
        have other := new item List.mem_cons_self entry listed
        rw [form] at other
        simpa using other
      have added : addListed dir entries (raw item) = .ok (entries ++ [shown item]) := by
        rw [rawFile] at read
        rw [addListed, read]
        dsimp only
        rw [resolved]
        dsimp only
        rw [fresh, form]
        rfl
      rw [List.map_cons, List.nodup_cons] at distinct
      rw [List.map_cons, List.foldlM_cons, added]
      refine (ih (fun other listed => files other (List.mem_cons_of_mem item listed)) distinct.2
        ?_).trans ?_
      · intro other listed entry member
        rcases List.mem_append.mp member with earlier | here
        · exact new other (List.mem_cons_of_mem item listed) entry earlier
        · rw [List.mem_singleton.mp here]
          intro same
          exact distinct.1 (same ▸ List.mem_map_of_mem listed)
      · rw [List.append_assoc, List.singleton_append, List.map_cons]

/-! ## Files of lines -/

theorem lineFile_of_not_tabbed {line : Text} (plain : ¬Tabbed line) :
    lineFile line = markedFile line := by
  rw [lineFile]
  split
  · next kind size mtime first rest parts =>
      refine if_neg ?_
      intro one
      exact plain ⟨kind, size, mtime, first :: rest, parts, List.cons_ne_nil _ _, one⟩
  · rfl

/-- A line that is taken for one of `find` loses at least four characters. -/
theorem length_lineFile_of_tabbed {line : Text} (tabbed : Tabbed line) :
    (lineFile line).name.length + 4 ≤ line.length := by
  obtain ⟨kind, size, mtime, rest, parts, some, one⟩ := tabbed
  obtain ⟨first, rest, rfl⟩ := List.exists_cons_of_ne_nil some
  have whole := @join_split '\t' line
  rw [parts, join_cons (List.cons_ne_nil _ _), join_cons (List.cons_ne_nil _ _),
    join_cons (List.cons_ne_nil _ _)] at whole
  have given : kind ≠ [] := by
    rintro rfl
    cases one
  have positive := List.length_pos_of_ne_nil given
  rw [lineFile, parts]
  dsimp only
  rw [if_pos one, tabbedFile, ← whole]
  simp only [List.length_append, List.length_cons]
  omega

theorem markedFile_isPrefix (line : Text) : (markedFile line).name <+: line := by
  rw [markedFile]
  split
  · exact List.dropLast_prefix line
  split
  · exact List.dropLast_prefix line
  split
  · exact List.dropLast_prefix line
  · exact List.prefix_refl line

/-- A line that keeps its length has no mark. -/
theorem unmarked_of_length {line : Text} (whole : (markedFile line).name.length = line.length) :
    line.getLast? ≠ some '/' ∧ line.getLast? ≠ some '@' ∧ line.getLast? ≠ some '|' ∧
      line.getLast? ≠ some '=' ∧ line.getLast? ≠ some '*' := by
  have shorter {c : Char} (ends : line.getLast? = some c) : line.dropLast.length ≠ line.length := by
    have given : line ≠ [] := by
      rintro rfl
      cases ends
    have positive := List.length_pos_of_ne_nil given
    rw [List.length_dropLast]
    omega
  rw [markedFile] at whole
  split at whole
  · next ends => exact absurd whole (shorter ends)
  next slash =>
  split at whole
  · next ends =>
      rcases ends with ends | ends | ends
      · exact absurd whole (shorter ends)
      · exact absurd whole (shorter ends)
      · exact absurd whole (shorter ends)
  next marks =>
  split at whole
  · next ends => exact absurd whole (shorter ends)
  next star =>
  rw [not_or, not_or] at marks
  exact ⟨slash, marks.1, marks.2.1, marks.2.2, star⟩

/-- The line of `find` for any text in the place of the name. -/
theorem lineFile_front (entry : DirectoryEntry) (name : Text) :
    lineFile (entry.front .find ++ name) =
      tabbedFile [entry.kind.letter] (toString entry.size : String).toList entry.stamp name := by
  have letter : '\t' ∉ [entry.kind.letter] := by cases entry.kind <;> decide
  have size : '\t' ∉ (toString entry.size : String).toList := by
    intro inside
    exact absurd (digits_toString _ inside) (by decide)
  have stamp : '\t' ∉ entry.stamp := by
    intro inside
    exact absurd (entry.decimal _ inside) (by decide)
  have form : entry.front .find ++ name = [entry.kind.letter] ++ '\t' ::
      ((toString entry.size : String).toList ++ '\t' :: (entry.stamp ++ '\t' :: name)) := by
    simp [DirectoryEntry.front]
  have one : utf16Length [entry.kind.letter] = 1 := by cases entry.kind <;> decide
  obtain ⟨first, rest, parts⟩ := List.exists_cons_of_ne_nil (split_ne_nil '\t' name)
  have whole := @join_split '\t' name
  rw [parts] at whole
  rw [lineFile, form, split_append_cons, split_append_cons, split_append_cons,
    split_of_notMem letter, split_of_notMem size, split_of_notMem stamp, parts]
  exact (if_pos one).trans (by rw [whole])

theorem readListLine_eq_some {line : Text} {file : LineFile}
    (read : readListLine line = some file) : lineFile line = file := by
  rw [readListLine] at read
  split at read
  · cases read
  · dsimp only at read
    split at read
    · cases read
    · exact Option.some.inj read

/-- The characters of a name stand in the line. -/
theorem name_subset_of_rawFile {raw : Text} {file : LineFile} (read : rawFile raw = some file)
    (clean : '\n' ∉ raw) : '\n' ∉ file.name := by
  have inner : '\n' ∉ dropCr raw := fun inside => clean ((dropCr_isPrefix raw).subset inside)
  have same := readListLine_eq_some read
  rw [← same]
  by_cases tabbed : Tabbed (dropCr raw)
  · obtain ⟨kind, size, mtime, rest, parts, some, one⟩ := tabbed
    obtain ⟨first, rest, rfl⟩ := List.exists_cons_of_ne_nil some
    rw [lineFile, parts]
    dsimp only
    rw [if_pos one]
    intro inside
    rcases mem_join inside with tab | ⟨part, member, here⟩
    · cases tab
    · refine inner (@mem_of_mem_split '\t' _ part _ ?_ here)
      rw [parts]
      exact List.mem_cons_of_mem _ (List.mem_cons_of_mem _ (List.mem_cons_of_mem _ member))
  · rw [lineFile_of_not_tabbed tabbed]
    exact fun inside => inner ((markedFile_isPrefix _).subset inside)

/-! ## What a line shows of its entry -/

namespace DirectoryEntry

theorem front_clean (format : ListFormat) (entry : DirectoryEntry) :
    (entry.front format).getLast? ≠ some '\r' := by
  cases format with
  | ls => exact nofun
  | find =>
      have form : entry.front .find = (entry.kind.letter :: '\t' ::
          ((toString entry.size : String).toList ++ '\t' :: entry.stamp)) ++ ['\t'] := by
        simp [front]
      rw [form, List.getLast?_concat]
      decide

/-- The line of a directory of `ls`. -/
theorem shownLine_directory (directory : entry.kind = .directory) :
    entry.shownLine .ls = utf8Text entry.name ++ ['/'] := by
  rw [shownLine, back, if_pos directory]
  rfl

/-- The line of another file of `ls`. -/
theorem shownLine_other (other : entry.kind ≠ .directory) :
    entry.shownLine .ls = utf8Text entry.name := by
  rw [shownLine, back, if_neg other]
  exact List.append_nil _

end DirectoryEntry

/-- The name that a line shows is not longer than the one of the entry, and shorter where the
format does not carry it. -/
theorem name_length_of_rawFile {file : LineFile}
    (read : rawFile (dropCr (entry.shownLine format)) = some file) :
    file.name.length ≤ (utf8Text entry.name).length ∧
      (file.name.length = (utf8Text entry.name).length →
        (format = .find ∨ entry.kind ≠ .directory →
          (utf8Text entry.name).getLast? ≠ some '\r') ∧
        (format = .ls → entry.kind ≠ .directory →
          (utf8Text entry.name).getLast? ≠ some '@' ∧ (utf8Text entry.name).getLast? ≠ some '|' ∧
            (utf8Text entry.name).getLast? ≠ some '=' ∧
            (utf8Text entry.name).getLast? ≠ some '*') ∧
        (format = .ls → ¬Tabbed (utf8Text entry.name ++ entry.back .ls))) := by
  obtain ⟨shorter, clean⟩ := dropCr_twice (utf8Text entry.name)
  have same := readListLine_eq_some read
  cases format with
  | find =>
      have line : dropCr (dropCr (entry.shownLine .find)) =
          entry.front .find ++ dropCr (dropCr (utf8Text entry.name)) := by
        rw [DirectoryEntry.shownLine, DirectoryEntry.back, List.append_nil,
          dropCr_append (entry.front_clean .find), dropCr_append (entry.front_clean .find)]
      rw [line, lineFile_front] at same
      rw [← same]
      exact ⟨shorter, fun whole => ⟨fun _ => clean whole, nofun, nofun⟩⟩
  | ls =>
      by_cases directory : entry.kind = .directory
      · have line : dropCr (dropCr (entry.shownLine .ls)) = utf8Text entry.name ++ ['/'] := by
          have kept : dropCr (utf8Text entry.name ++ ['/']) = utf8Text entry.name ++ ['/'] :=
            dropCr_of_clean (by rw [List.getLast?_concat]; decide)
          rw [DirectoryEntry.shownLine_directory directory, kept, kept]
        have back : entry.back .ls = ['/'] := if_pos directory
        rw [line] at same
        by_cases tabbed : Tabbed (utf8Text entry.name ++ ['/'])
        · have short := length_lineFile_of_tabbed tabbed
          rw [same, List.length_append, List.length_singleton] at short
          exact ⟨by omega, fun whole => absurd whole (by omega)⟩
        · have name : (markedFile (utf8Text entry.name ++ ['/'])).name = utf8Text entry.name := by
            rw [markedFile, if_pos (List.getLast?_concat ..)]
            exact List.dropLast_concat
          rw [← same, lineFile_of_not_tabbed tabbed, name, back]
          refine ⟨le_rfl, fun _ => ⟨?_, fun _ other => absurd directory other, fun _ => tabbed⟩⟩
          rintro (other | other)
          · cases other
          · exact absurd directory other
      · have back : entry.back .ls = [] := if_neg directory
        rw [DirectoryEntry.shownLine_other directory] at same
        by_cases tabbed : Tabbed (dropCr (dropCr (utf8Text entry.name)))
        · have short := length_lineFile_of_tabbed tabbed
          rw [same] at short
          exact ⟨by omega, fun whole => absurd whole (by omega)⟩
        · rw [lineFile_of_not_tabbed tabbed] at same
          have beginning := (markedFile_isPrefix (dropCr (dropCr (utf8Text entry.name)))).length_le
          rw [same] at beginning
          refine ⟨by omega, fun whole => ?_⟩
          have kept : dropCr (dropCr (utf8Text entry.name)) = utf8Text entry.name := by
            have cut := (dropCr_isPrefix (dropCr (utf8Text entry.name))).trans
              (dropCr_isPrefix (utf8Text entry.name))
            exact cut.eq_of_length (by omega)
          rw [kept] at same tabbed
          have length : (markedFile (utf8Text entry.name)).name.length =
              (utf8Text entry.name).length := by
            rw [same, whole]
          have marks := unmarked_of_length length
          rw [back, List.append_nil]
          exact ⟨fun _ => clean (by rw [kept]), fun _ _ => marks.2, fun _ => tabbed⟩

/-! ## All lines together -/

/-- Where no file is longer than its entry, and all are as long together, each entry has a file of
its length. -/
theorem whole_of_sum {α β : Type} {read : α → Option β} {short : β → Nat} {long : α → Nat}
    {items : List α} (some : ∀ item ∈ items, 0 < long item)
    (within : ∀ item ∈ items, ∀ file, read item = .some file → short file ≤ long item) :
    ((items.filterMap read).map short).sum ≤ (items.map long).sum ∧
      (((items.filterMap read).map short).sum = (items.map long).sum →
        ∀ item ∈ items, ∃ file, read item = .some file ∧ short file = long item) := by
  induction items with
  | nil => exact ⟨le_rfl, nofun⟩
  | cons item rest ih =>
      rw [List.forall_mem_cons] at some within
      obtain ⟨bound, tight⟩ := ih some.2 within.2
      cases here : read item with
      | none =>
          rw [List.filterMap_cons_none here, List.map_cons, List.sum_cons]
          have positive := some.1
          exact ⟨by omega, fun same => absurd same (by omega)⟩
      | some file =>
          rw [List.filterMap_cons_some here, List.map_cons, List.sum_cons, List.map_cons,
            List.sum_cons]
          have first := within.1 file here
          refine ⟨by omega, fun same => List.forall_mem_cons.mpr ⟨⟨file, here, by omega⟩, ?_⟩⟩
          exact tight (by omega)

/-! ## Paths -/

theorem pathNames_slashedPath {parts : List Text} (plain : ∀ seg ∈ parts, PlainSegment seg) :
    pathNames (slashedPath parts) = parts.map utf8Encode := by
  have kept : parts.filter (· ≠ []) = parts := by
    rw [List.filter_eq_self]
    exact fun seg member => decide_eq_true (plain seg member).1
  have names : (split '/' (slashedPath parts)).filter (· ≠ []) = parts := by
    rw [slashedPath_eq_join, split, if_pos rfl, List.filter_cons_of_neg (by simp)]
    by_cases none : parts = []
    · subst none
      rfl
    · rw [split_join none fun seg member => (plain seg member).slashFree, kept]
  rw [pathNames, names]

/-- A legal name is a plain segment, but for backslashes. -/
theorem DirectoryEntry.plain {name : Text} (text : entry.name = utf8Encode name)
    (noBackslash : '\\' ∉ name) : PlainSegment name := by
  have legal {c : Char} {b : UInt8} (byte : String.utf8EncodeChar c = [b]) (inside : c ∈ name) :
      b ∈ entry.name := by
    rw [text]
    exact List.mem_flatMap.mpr ⟨c, inside, by rw [byte]; exact List.mem_singleton_self b⟩
  have one : utf8Encode "." = [46] := by decide
  have two : utf8Encode ".." = [46, 46] := by decide
  refine ⟨?_, ?_, ?_, ?_⟩
  · rintro rfl
    exact entry.given text
  · rintro rfl
    exact entry.noDots.1 (text.trans one)
  · rintro rfl
    exact entry.noDots.2 (text.trans two)
  · intro c inside
    refine ⟨?_, ?_, ?_⟩
    · rintro rfl
      exact (entry.legal 47 (legal (by decide) inside)).2 rfl
    · rintro rfl
      exact noBackslash inside
    · rintro rfl
      exact (entry.legal 0 (legal (by decide) inside)).1 rfl

/-- The path of a name that is carried. -/
theorem Carries.path {name : Text} (carries : Carries format dir.text entry name) :
    resolveGuestPath dir.text name = .ok (joinedPath dir.text name) ∧
      pathNames (joinedPath dir.text name) = pathNames dir.text ++ [entry.name] := by
  obtain ⟨parts, resolved, form⟩ := resolved_of_resolveGuestPath dir.resolved
  have segment := entry.plain carries.text carries.noBackslash
  have plain : ∀ seg ∈ parts ++ [name], PlainSegment seg := by
    intro seg member
    rcases List.mem_append.mp member with earlier | last
    · exact resolved.1 seg earlier
    · rw [List.mem_singleton.mp last]
      exact segment
  have joined := joinedPath_slashedPath resolved.1 segment.1 segment.slashFree
  have short := carries.short
  rw [form, joined] at short ⊢
  rw [resolveGuestPath_below resolved.1 segment.1 segment.slashFree, Resolved.fixed ⟨plain, short⟩,
    pathNames_slashedPath plain, pathNames_slashedPath resolved.1, carries.text, List.map_append]
  exact ⟨rfl, rfl⟩

/-- A path that leads to the entry is that of its name. -/
theorem carried_of_path {name path : Text} (text : entry.name = utf8Encode name)
    (resolved : resolveGuestPath dir.text name = .ok path)
    (leads : pathNames path = pathNames dir.text ++ [entry.name]) :
    '\\' ∉ name ∧ utf16Length (joinedPath dir.text name) ≤ guestFileMaxPath := by
  obtain ⟨parts, above, form⟩ := resolved_of_resolveGuestPath dir.resolved
  obtain ⟨whole, below, rfl⟩ := resolved_of_resolveGuestPath resolved
  rw [pathNames_slashedPath below.1, form, pathNames_slashedPath above.1, text] at leads
  have same : whole = parts ++ [name] := by
    apply (List.map_injective_iff.mpr utf8Encode_injective)
    rw [leads, List.map_append]
    rfl
  subst same
  have segment := below.last_plain
  refine ⟨fun inside => (segment.2.2.2 _ inside).2.1 rfl, ?_⟩
  rw [form, joinedPath_slashedPath above.1 segment.1 segment.slashFree]
  exact below.2

/-! ## Which directories are shown -/

theorem shownLine_unbroken (clean : '\n' ∉ utf8Text entry.name) :
    '\n' ∉ entry.shownLine format := by
  have front : '\n' ∉ entry.front format := by
    cases format with
    | ls => exact List.not_mem_nil
    | find =>
        intro inside
        simp only [DirectoryEntry.front, List.mem_cons, List.mem_append, List.not_mem_nil,
          or_false] at inside
        rcases inside with letter | tab | size | tab | stamp | tab
        · revert letter
          cases entry.kind <;> decide
        · cases tab
        · exact absurd (digits_toString _ size) (by decide)
        · cases tab
        · exact absurd (entry.decimal _ stamp) (by decide)
        · cases tab
  have back : '\n' ∉ entry.back format := by
    cases format with
    | find => exact List.not_mem_nil
    | ls =>
        rw [DirectoryEntry.back]
        split
        · decide
        · exact List.not_mem_nil
  rw [DirectoryEntry.shownLine, List.mem_append, List.mem_append]
  rintro (here | here | here)
  · exact front here
  · exact clean here
  · exact back here

/-- The lines of a directory whose names have no line breaks. -/
theorem Directory.splitLines_output {directory : Directory}
    (clean : ∀ entry ∈ directory.entries, '\n' ∉ utf8Text entry.name) :
    splitLines (directory.output format) =
      (directory.entries.map fun entry => dropCr (entry.shownLine format)) ++ [[]] := by
  rw [output_eq, splitLines_lines, List.map_map]
  · rfl
  · intro line listed
    obtain ⟨entry, member, rfl⟩ := List.mem_map.mp listed
    exact shownLine_unbroken (clean entry member)

theorem readListLine_of_plain {line : Text} (given : line ≠ [])
    (plain : PlainSegment (lineFile line).name) : readListLine line = some (lineFile line) := by
  obtain ⟨some, dot, dots, -⟩ := plain
  rw [readListLine, if_neg given]
  exact if_neg (not_or.mpr ⟨some, not_or.mpr ⟨dot, dots⟩⟩)

theorem text_of_encoded {name : Text} (text : entry.name = utf8Encode name) :
    utf8Text entry.name = name := by
  rw [text, utf8Text_utf8Encode]

/-- The letter tells directories from other files. -/
theorem FileKind.tabbed_dir_iff {size mtime name : Text} (kind : FileKind) :
    (tabbedFile [kind.letter] size mtime name).type = .dir ↔ kind = .directory := by
  have types : (if ([kind.letter] : Text) = "d" then GuestFileKind.dir
      else if ([kind.letter] : Text) = "f" ∨ ([kind.letter] : Text) = "l" then .file else .other) =
        .dir ↔ kind = .directory := by
    cases kind <;> decide
  exact types

/-- The file that the line of an entry is read as. -/
def DirectoryEntry.shownFile (format : ListFormat) (entry : DirectoryEntry) : LineFile :=
  lineFile (dropCr (dropCr (entry.shownLine format)))

/-- A name that is carried is read from its line. -/
theorem Carries.shownFile {name : Text} (carries : Carries format dir.text entry name) :
    dropCr (dropCr (entry.shownLine format)) ≠ [] ∧ (entry.shownFile format).name = name ∧
      ((entry.shownFile format).type = .dir ↔ entry.kind = .directory) := by
  have text := text_of_encoded carries.text
  have segment := entry.plain carries.text carries.noBackslash
  rw [DirectoryEntry.shownFile]
  cases format with
  | find =>
      have line : dropCr (dropCr (entry.shownLine .find)) = entry.front .find ++ name := by
        rw [DirectoryEntry.shownLine, DirectoryEntry.back, List.append_nil, text,
          dropCr_append (entry.front_clean .find), dropCr_of_clean (carries.noReturn (.inl rfl)),
          dropCr_append (entry.front_clean .find), dropCr_of_clean (carries.noReturn (.inl rfl))]
      rw [line, lineFile_front]
      exact ⟨List.append_ne_nil_of_right_ne_nil _ segment.1, rfl, entry.kind.tabbed_dir_iff⟩
  | ls =>
      by_cases directory : entry.kind = .directory
      · have line : dropCr (dropCr (entry.shownLine .ls)) = name ++ ['/'] := by
          have kept : dropCr (name ++ ['/']) = name ++ ['/'] :=
            dropCr_of_clean (by rw [List.getLast?_concat]; decide)
          rw [DirectoryEntry.shownLine_directory directory, text, kept, kept]
        have plain := carries.noTabs rfl
        rw [DirectoryEntry.back, if_pos directory] at plain
        rw [line, lineFile_of_not_tabbed plain, markedFile, if_pos (List.getLast?_concat ..)]
        exact ⟨List.append_ne_nil_of_left_ne_nil segment.1 _, List.dropLast_concat,
          iff_of_true rfl directory⟩
      · have clean := carries.noReturn (.inr directory)
        have line : dropCr (dropCr (entry.shownLine .ls)) = name := by
          rw [DirectoryEntry.shownLine_other directory, text, dropCr_of_clean clean,
            dropCr_of_clean clean]
        have plain := carries.noTabs rfl
        rw [DirectoryEntry.back, if_neg directory, List.append_nil] at plain
        have slash : name.getLast? ≠ some '/' :=
          fun ends => segment.slashFree (List.mem_of_getLast? ends)
        obtain ⟨at_, bar, equals, star⟩ := carries.noMark rfl directory
        rw [line, lineFile_of_not_tabbed plain, markedFile, if_neg slash,
          if_neg (not_or.mpr ⟨at_, not_or.mpr ⟨bar, equals⟩⟩), if_neg star]
        exact ⟨segment.1, rfl, iff_of_false nofun directory⟩

/-- The entry that is shown for a name that is carried. -/
def DirectoryEntry.shownEntry (dir : Text) (format : ListFormat) (entry : DirectoryEntry) :
    GuestFileEntry where
  name := utf8Text entry.name
  path := joinedPath dir (utf8Text entry.name)
  type := (entry.shownFile format).type
  size := (entry.shownFile format).size
  mtime := (entry.shownFile format).mtime

/-- A directory whose names are all carried is shown. -/
theorem Directory.shown_of_carries {directory : Directory}
    (carries : ∀ entry ∈ directory.entries, ∃ name, Carries format dir.text entry name) :
    directory.Shown compare dir format := by
  have carried : ∀ entry ∈ directory.entries,
      Carries format dir.text entry (utf8Text entry.name) := by
    intro entry member
    obtain ⟨name, here⟩ := carries entry member
    rw [text_of_encoded here.text]
    exact here
  have files : ∀ entry ∈ directory.entries, ∃ file path,
      rawFile (dropCr (entry.shownLine format)) = some file ∧
        resolveGuestPath dir.text file.name = .ok path ∧
        entry.shownEntry dir.text format =
          ⟨file.name, path, file.type, file.size, file.mtime⟩ := by
    intro entry member
    obtain ⟨given, name, -⟩ := (carried entry member).shownFile
    have segment := entry.plain (carried entry member).text (carried entry member).noBackslash
    refine ⟨entry.shownFile format, joinedPath dir.text (utf8Text entry.name),
      readListLine_of_plain given ?_, ?_, ?_⟩
    · exact name.symm ▸ segment
    · rw [name]
      exact (carried entry member).path.1
    · rw [DirectoryEntry.shownEntry, name]
  have distinct : (directory.entries.map fun entry =>
      (entry.shownEntry dir.text format).name).Nodup := by
    refine List.Nodup.of_map utf8Encode ?_
    rw [List.map_map]
    have same : directory.entries.map (utf8Encode ∘ fun entry =>
        (entry.shownEntry dir.text format).name) = directory.entries.map (·.name) :=
      List.map_congr_left fun entry member => (carried entry member).text.symm
    rw [same]
    exact directory.distinct
  have done := @foldlM_addListed_of_paths _ _ _ _ _ files distinct [] nofun
  rw [List.nil_append] at done
  have parsed : (splitLines (directory.output format)).foldlM (addListed dir.text) [] =
      .ok (directory.entries.map (DirectoryEntry.shownEntry dir.text format)) := by
    rw [splitLines_output fun entry member => (carried entry member).noBreak, List.foldlM_append,
      done]
    rfl
  refine ⟨(directory.entries.map (DirectoryEntry.shownEntry dir.text format)).mergeSort
    (listedBefore compare), _, ?_, (List.mergeSort_perm _ _).symm, ?_⟩
  · rw [parseGuestListOutput, parsed]
    rfl
  · rw [List.forall₂_map_right_iff, List.forall₂_same]
    intro entry member
    exact ⟨(carried entry member).text.symm, (carried entry member).shownFile.2.2,
      (carried entry member).path.2⟩

/-- Each entry of a directory that is shown is among the entries of the listing. -/
theorem exists_shownAs {directory : List DirectoryEntry} {listed : List GuestFileEntry} {dir : Text}
    (all : List.Forall₂ (DirectoryEntry.ShownAs dir) directory listed) :
    (∀ entry ∈ directory, ∃ shown ∈ listed, entry.ShownAs dir shown) ∧
      directory.map (fun entry => utf8Text entry.name) = listed.map (·.name) := by
  induction all with
  | nil => exact ⟨nofun, rfl⟩
  | cons here rest ih =>
      refine ⟨List.forall_mem_cons.mpr ⟨⟨_, List.mem_cons_self, here⟩, ?_⟩, ?_⟩
      · intro entry member
        obtain ⟨shown, inside, as⟩ := ih.1 entry member
        exact ⟨shown, List.mem_cons_of_mem _ inside, as⟩
      · rw [List.map_cons, List.map_cons, ih.2, ← here.name, utf8Text_utf8Encode]

/-- The names of a directory that is shown are all carried. -/
theorem Directory.carries_of_shown {directory : Directory}
    (shown : directory.Shown compare dir format) :
    ∀ entry ∈ directory.entries, Carries format dir.text entry (utf8Text entry.name) := by
  obtain ⟨sorted, listed, parsed, perm, all⟩ := shown
  rw [parseGuestListOutput] at parsed
  cases done : (splitLines (directory.output format)).foldlM (addListed dir.text) [] with
  | error message =>
      rw [done] at parsed
      cases parsed
  | ok entries =>
  rw [done] at parsed
  have order : listed.Perm entries := by
    have same := Except.ok.inj parsed
    rw [← same] at perm
    exact perm.trans (List.mergeSort_perm _ _)
  obtain ⟨more, form, inside, paths⟩ := foldlM_addListed done
  rw [List.nil_append] at form
  subst form
  obtain ⟨as, names⟩ := exists_shownAs all
  have clean : ∀ entry ∈ directory.entries, '\n' ∉ utf8Text entry.name := by
    intro entry member
    obtain ⟨there, held, here⟩ := as entry member
    have name := inside.subset (List.mem_map_of_mem (order.subset held))
    obtain ⟨file, read, same⟩ := List.mem_map.mp name
    obtain ⟨raw, piece, read⟩ := List.mem_filterMap.mp read
    rw [← here.name, utf8Text_utf8Encode, ← same]
    exact name_subset_of_rawFile read (break_notMem_of_mem_splitLines piece)
  have files : (splitLines (directory.output format)).filterMap rawFile =
      directory.entries.filterMap fun entry => rawFile (dropCr (entry.shownLine format)) := by
    rw [splitLines_output clean, List.filterMap_append, List.filterMap_map]
    exact List.append_nil _
  have text : ∀ entry ∈ directory.entries, entry.name = utf8Encode (utf8Text entry.name) := by
    intro entry member
    obtain ⟨there, -, here⟩ := as entry member
    rw [← here.name, utf8Text_utf8Encode]
  have given : ∀ entry ∈ directory.entries, 0 < (utf8Text entry.name).length := by
    intro entry member
    apply List.length_pos_of_ne_nil
    intro nothing
    have empty := text entry member
    rw [nothing] at empty
    exact entry.given empty
  have bound : ∀ entry ∈ directory.entries, ∀ file,
      rawFile (dropCr (entry.shownLine format)) = some file →
        file.name.length ≤ (utf8Text entry.name).length :=
    fun entry member file read => (name_length_of_rawFile read).1
  obtain ⟨low, whole⟩ := whole_of_sum given bound
  have high : (directory.entries.map fun entry => (utf8Text entry.name).length).sum ≤
      ((directory.entries.filterMap fun entry =>
        rawFile (dropCr (entry.shownLine format))).map fun file => file.name.length).sum := by
    have shorter := (inside.map List.length).sum_le_sum fun _ _ => Nat.zero_le _
    have lengths := congrArg (List.map List.length) names
    have together := ((order.map (·.name)).map List.length).sum_eq
    rw [List.map_map] at lengths
    rw [files, List.map_map, List.map_map, ← List.map_map, ← together, ← lengths] at shorter
    exact shorter
  intro entry member
  obtain ⟨file, read, same⟩ := whole (le_antisymm low high) entry member
  obtain ⟨noReturn, noMark, noTabs⟩ := (name_length_of_rawFile read).2 same
  obtain ⟨there, held, here⟩ := as entry member
  have name : there.name = utf8Text entry.name := by
    rw [← here.name, utf8Text_utf8Encode]
  have resolved := paths there (order.subset held)
  rw [name] at resolved
  obtain ⟨noBackslash, short⟩ := carried_of_path (text entry member) resolved here.path
  exact ⟨text entry member, clean entry member, noBackslash, short, noReturn, noMark, noTabs⟩

/-- A listing gives a directory back just where its format carries every name. -/
theorem listing_iff (compare : Text → Text → Int) (dir : GuestPath) (directory : Directory)
    (format : ListFormat) :
    directory.Shown compare dir format ↔
      ∀ entry ∈ directory.entries, ∃ name, Carries format dir.text entry name := by
  constructor
  · exact fun shown entry member => ⟨_, Directory.carries_of_shown shown entry member⟩
  · exact Directory.shown_of_carries

/-- A file whose name is `a`, a line break and `b`. -/
def brokenEntry : DirectoryEntry :=
  ⟨[97, 10, 98], .regular, 1, ['2'], by decide, by simp, by decide, by simp⟩

/-- A directory with this file only. -/
def brokenDirectory : Directory := ⟨[brokenEntry], List.nodup_singleton _⟩

/-- `find` shows it as two files. -/
theorem brokenDirectory_not_shown :
    ¬brokenDirectory.Shown (fun _ _ => 0) ⟨"/", by decide⟩ .find := by
  rintro ⟨entries, listed, parsed, perm, all⟩
  have two : ((splitLines (brokenDirectory.output .find)).foldlM (addListed "/") []).map
      List.length = .ok 2 := by
    decide
  have parsedLength := congrArg (Except.map List.length) parsed
  have sorted : (parseGuestListOutput (fun _ _ => 0) (brokenDirectory.output .find) "/").map
      List.length = .ok 2 := by
    rw [parseGuestListOutput]
    cases done : (splitLines (brokenDirectory.output .find)).foldlM (addListed "/") [] with
    | error message =>
        rw [done] at two
        cases two
    | ok files =>
        rw [done] at two
        refine congrArg Except.ok ?_
        rw [List.length_mergeSort]
        exact Except.ok.inj two
  have entriesLength : entries.length = 2 := Except.ok.inj (parsedLength.symm.trans sorted)
  have listedLength : listed.length = 1 := all.length_eq.symm
  have same := perm.length_eq
  omega

end Proxora
