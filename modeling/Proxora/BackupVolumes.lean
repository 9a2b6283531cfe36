import Proxora.BackupFiles
import Proxora.Ecma.Captures
import Proxora.Ecma.SlashPattern

/-!
# Backups among the volumes of a host

A `BackupName` is the name that `vzdump` or a backup server gives to a backup of a guest,
with nothing left out of what tells backups from other volumes. `readGuest_of_names` says
that `parseBackupVolid` finds the guest in every such name; it finds guests in other
volumes too.
-/

namespace Proxora

open Ecma Ecma.Regex

/-! ## The names of backups -/

/-- The front of the name of a file of `vzdump`. -/
def vzdumpMark : GuestKind → Text
  | .vm => "vzdump-qemu-"
  | .lxc => "vzdump-lxc-"

/-- The word for the kind of a guest in a path on a backup server. -/
def snapshotWord : GuestKind → Text
  | .vm => "vm"
  | .lxc => "ct"

/-- The name of a backup: the guest it is of, and behind the VMID the time and the format.
A VMID has at most nine digits. -/
structure BackupName where
  kind : GuestKind
  digits : Text
  tail : Text
  digits_ne_nil : digits ≠ []
  isDigit : ∀ c ∈ digits, c.isDigit = true
  small : digitsValue digits < 10 ^ 9
  tail_ne_nil : tail ≠ []
  plain : '/' ∉ tail
  once : ¬("vzdump-" : Text) <:+: tail.map Char.toLower

namespace BackupName

def vmid (name : BackupName) : Nat := digitsValue name.digits

/-- `vzdump-qemu-100-2024_01_01-00_00_00.vma.zst` -/
def fileName (name : BackupName) : Text :=
  vzdumpMark name.kind ++ (name.digits ++ '-' :: name.tail)

/-- `backup/vm/100/2024-01-01T00:00:00Z` -/
def snapshot (name : BackupName) : Text :=
  ("backup" : Text) ++ '/' :: (snapshotWord name.kind ++ '/' :: (name.digits ++ '/' :: name.tail))

/-- The volumes of this name: a file at the root of its storage or in the directory for
backups, and a snapshot. -/
def volumes (name : BackupName) : List Text :=
  [name.fileName, ("backup" : Text) ++ '/' :: name.fileName, name.snapshot]

end BackupName

/-- The volume is a backup of the guest. -/
def IsBackupOf (kind : GuestKind) (vmid : Nat) (volume : Text) : Prop :=
  ∃ name : BackupName, name.kind = kind ∧ name.vmid = vmid ∧ volume ∈ name.volumes

/-- The volume id is made of the storage and the volume. -/
def VolidOf (volid storage volume : Text) : Prop :=
  volid = storage ++ ':' :: volume ∧ storage ≠ [] ∧ ':' ∉ storage

/-- The volume id is the one of a backup of the guest. -/
def IsBackupVolidOf (kind : GuestKind) (vmid : Nat) (volid : Text) : Prop :=
  ∃ storage volume, VolidOf volid storage volume ∧ IsBackupOf kind vmid volume

/-- The volume id has the form of a backup, of whatever guest. -/
def IsBackupVolid (volid : Text) : Prop := ∃ kind vmid, IsBackupVolidOf kind vmid volid

/-! ## What the parser reads -/

/-- The guest that `parseBackupVolid` finds in a volume. -/
def readGuest (volume : Text) : Option (GuestKind × Int) :=
  let filename := (split '/' volume).getLastD volume
  match vmidIn qemuFile filename with
  | some vmid => some (.vm, vmid)
  | none =>
      match vmidIn lxcFile filename with
      | some vmid => some (.lxc, vmid)
      | none =>
          match vmidIn pbsVm volume with
          | some vmid => some (.vm, vmid)
          | none => (vmidIn pbsCt volume).map fun vmid => (.lxc, vmid)

/-- The kind and the VMID of a parsed volume id. -/
def ParsedBackupVolid.Reads (parsed : ParsedBackupVolid) : Option (GuestKind × Int) → Prop
  | some (kind, vmid) => parsed.kind = .guest kind ∧ parsed.vmid = some vmid
  | none => parsed.kind = .unknown ∧ parsed.vmid = none

theorem parseBackupVolid_reads {volid storage volume : Text} (trimmed : trim volid = volid)
    (made : VolidOf volid storage volume) :
    (parseBackupVolid volid).storage = storage ∧ (parseBackupVolid volid).volume = volume ∧
      (parseBackupVolid volid).Reads (readGuest volume) := by
  obtain ⟨rfl, -, plain⟩ := made
  have colon : ∀ c ∈ storage, (decide (c ≠ ':')) = true := fun c member =>
    decide_eq_true fun same => plain (same ▸ member)
  have ahead : (storage ++ ':' :: volume).dropWhile (· ≠ ':') = ':' :: volume := by
    rw [List.dropWhile_append_of_pos colon, List.dropWhile_cons_of_neg (by decide)]
  have behind : (storage ++ ':' :: volume).takeWhile (· ≠ ':') = storage := by
    rw [List.takeWhile_append_of_pos colon, List.takeWhile_cons_of_neg (by decide),
      List.append_nil]
  unfold parseBackupVolid readGuest
  rw [trimmed]
  simp only [ahead, behind, if_neg (List.cons_ne_nil _ _), List.tail_cons]
  cases vmidIn qemuFile ((split '/' volume).getLastD volume) with
  | some vmid => exact ⟨rfl, rfl, rfl, rfl⟩
  | none =>
      cases vmidIn lxcFile ((split '/' volume).getLastD volume) with
      | some vmid => exact ⟨rfl, rfl, rfl, rfl⟩
      | none =>
          cases vmidIn pbsVm volume with
          | some vmid => exact ⟨rfl, rfl, rfl, rfl⟩
          | none =>
              cases vmidIn pbsCt volume with
              | some vmid => exact ⟨rfl, rfl, rfl, rfl⟩
              | none => exact ⟨rfl, rfl, rfl, rfl⟩

/-! ## The parser on the names of backups -/

/-- A file name with the mark in front, a VMID and a dash. -/
theorem vmidIn_file {mark digits tail : Text} (some_digit : digits ≠ [])
    (isDigit : ∀ c ∈ digits, c.isDigit = true) :
    vmidIn (.seq (litI mark) (.group 1 (plus digit))) (mark ++ (digits ++ '-' :: tail)) =
      some (numberOfDigits digits : Int) := by
  have stops : ∀ c ∈ ('-' :: tail).head?, c.isDigit = false := by
    intro c member
    obtain rfl := Option.some.inj member
    rfl
  have first : First (.seq (litI mark) (.group 1 (plus digit)))
      ⟨⟨[], mark ++ (digits ++ '-' :: tail)⟩, []⟩
      ⟨⟨digits.reverse ++ (mark.reverse ++ []), '-' :: tail⟩, [(1, digits)]⟩ :=
    (First.litI rfl).seq
      ((First.plus_cls some_digit isDigit stops).group (readBetween_append rfl))
  rw [vmidIn, Regex.exec, execFrom_of_head first]
  rfl

/-- A mark that a text carries nowhere. -/
theorem vmidIn_file_eq_none {mark s : Text}
    (free : ¬mark.map Char.toLower <:+: s.map Char.toLower) :
    vmidIn (.seq (litI mark) (.group 1 (plus digit))) s = none := by
  have digits : Consumes (.group 1 (plus digit)) _ := Consumes.plus_cls Char.isDigit
  have consumes := (Consumes.litI mark).seq digits
  have misses : Regex.exec (.seq (litI mark) (.group 1 (plus digit))) s = none := by
    rw [exec_eq_none_iff, ← Bool.not_eq_true, consumes.test_iff]
    rintro ⟨a, _, b, rfl, u, v, rfl, same, -⟩
    refine free ⟨a.map Char.toLower, (v ++ b).map Char.toLower, ?_⟩
    rw [← same]
    simp only [List.map_append, List.append_assoc]
  rw [vmidIn, misses, Option.bind_none]

/-- What begins with a character that the front has not lies behind the front. -/
theorem infix_of_head_notMem {a : Char} {w x y : Text} (free : a ∉ x)
    (inside : a :: w <:+: x ++ y) : a :: w <:+: y := by
  induction x with
  | nil => exact inside
  | cons b x ih =>
      rw [List.mem_cons, not_or] at free
      rcases List.infix_cons_iff.mp inside with starts | later
      · exact absurd (List.cons_prefix_cons.mp starts).1 free.1
      · exact ih free.2 later

/-- A mark that differs from the front early on, and that is not in the rest. -/
theorem not_infix_append {a : Char} {w front rest : Text} (n : Nat) (long : n ≤ front.length)
    (differs : ¬(a :: w).take n <+: front) (free : a ∉ front.tail) (later : ¬a :: w <:+: rest) :
    ¬a :: w <:+: front ++ rest := by
  cases front with
  | nil => exact later
  | cons b front =>
      intro inside
      rcases List.infix_cons_iff.mp inside with starts | behind
      · have short : ((a :: w).take n).length ≤ (b :: front).length :=
          (List.length_take_le n _).trans long
        exact differs (List.prefix_of_prefix_length_le ((List.take_prefix n _).trans starts)
          (List.prefix_append _ rest) short)
      · exact later (infix_of_head_notMem free behind)

namespace BackupName

variable (name : BackupName)

/-- A mark that begins as `vzdump-` is not in the tail. -/
theorem free_of_once {mark : Text} (begins : ("vzdump-" : Text) <+: mark) :
    ¬mark <:+: name.tail.map Char.toLower :=
  fun inside => name.once (begins.isInfix.trans inside)

theorem toLower_digits : name.digits.map Char.toLower = name.digits := by
  refine (List.map_congr_left fun c member => ?_).trans (List.map_id _)
  have digit : c.isDigit = true := name.isDigit c member
  refine Char.toLower_eq_of_not_isUpper fun upper => ?_
  simp only [Char.isDigit, Char.isUpper, Bool.and_eq_true, decide_eq_true_eq, ge_iff_le,
    UInt32.le_iff_toNat_le] at digit upper
  exact absurd (upper.1.trans digit.2) (by decide)

theorem fileName_lower : name.fileName.map Char.toLower =
    (vzdumpMark name.kind).map Char.toLower ++ ((name.digits ++ ['-']) ++
      name.tail.map Char.toLower) := by
  unfold fileName
  rw [List.map_append, List.map_append, name.toLower_digits, List.map_cons, List.append_assoc]
  rfl

/-- The file of a container carries no mark of a virtual machine. -/
theorem qemu_free_of_lxc (lxc : name.kind = .lxc) :
    ¬(vzdumpMark .vm).map Char.toLower <:+: name.fileName.map Char.toLower := by
  rw [name.fileName_lower, lxc]
  have mark : (vzdumpMark .vm).map Char.toLower = 'v' :: ("zdump-qemu-" : Text) := by decide
  rw [mark]
  refine not_infix_append 8 (by decide) (by decide) (by decide) fun inside => ?_
  refine name.free_of_once (by decide) (infix_of_head_notMem ?_ inside)
  rw [List.mem_append, List.mem_singleton]
  rintro (digit | dash)
  · exact absurd (name.isDigit _ digit) (by decide)
  · exact absurd dash (by decide)

theorem qemuFile_eq : qemuFile = .seq (litI (vzdumpMark .vm)) (.group 1 (plus digit)) := rfl

theorem lxcFile_eq : lxcFile = .seq (litI (vzdumpMark .lxc)) (.group 1 (plus digit)) := rfl

/-- What the parser reads from the file of a virtual machine. -/
theorem vmidIn_qemuFile (vm : name.kind = .vm) :
    vmidIn qemuFile name.fileName = some (numberOfDigits name.digits : Int) := by
  rw [qemuFile_eq, ← vm]
  exact vmidIn_file name.digits_ne_nil name.isDigit

/-- What it reads from the file of a container. -/
theorem vmidIn_lxcFile (lxc : name.kind = .lxc) :
    vmidIn qemuFile name.fileName = none ∧
      vmidIn lxcFile name.fileName = some (numberOfDigits name.digits : Int) := by
  refine ⟨vmidIn_file_eq_none (name.qemu_free_of_lxc lxc), ?_⟩
  rw [lxcFile_eq, ← lxc]
  exact vmidIn_file name.digits_ne_nil name.isDigit

theorem slash_notMem_fileName : '/' ∉ name.fileName := by
  unfold fileName
  rw [List.mem_append, List.mem_append, List.mem_cons]
  rintro (mark | digit | dash | tail)
  · revert mark
    cases name.kind with
    | vm => decide
    | lxc => decide
  · exact absurd (name.isDigit _ digit) (by decide)
  · exact absurd dash (by decide)
  · exact name.plain tail

theorem slash_notMem_digits : '/' ∉ name.digits :=
  fun member => absurd (name.isDigit _ member) (by decide)

theorem split_snapshot :
    split '/' name.snapshot =
      [("backup" : Text), snapshotWord name.kind, name.digits, name.tail] := by
  have word : '/' ∉ snapshotWord name.kind := by
    cases name.kind with
    | vm => decide
    | lxc => decide
  unfold snapshot
  rw [split_append_cons, split_append_cons, split_append_cons, split_of_notMem (by decide),
    split_of_notMem word, split_of_notMem name.slash_notMem_digits, split_of_notMem name.plain]
  rfl

end BackupName

/-! ## The parser on paths -/

section Paths

variable {b c w : Char} {word before after : Text}

theorem run_slash_eq_nil (plain : c ≠ '/') : run (lit "/") ⟨⟨before, c :: after⟩, []⟩ = [] := by
  refine run_seq_eq_nil (run_cls_eq_nil fun d same => ?_)
  obtain rfl := Option.some.inj same
  exact beq_false_of_ne plain

/-- No match begins at a character that is no slash, unless it is the first one. -/
theorem run_pbsPath_eq_nil (plain : c ≠ '/') (later : before ≠ []) :
    run (pbsPath word) ⟨⟨before, c :: after⟩, []⟩ = [] := by
  refine run_seq_eq_nil ?_
  rw [run, run_slash_eq_nil plain, List.append_nil, run, if_neg later]

/-- None begins at a first character that is not the one of the word either. -/
theorem run_pbsPath_head (plain : b ≠ '/') (apart : b ≠ w) :
    run (pbsPath (w :: word)) ⟨⟨[], b :: after⟩, []⟩ = [] := by
  have only : run (.alt .bos (lit "/")) ⟨⟨[], b :: after⟩, []⟩ = [⟨⟨[], b :: after⟩, []⟩] := by
    rw [run, run_slash_eq_nil plain, List.append_nil]
    rfl
  refine run_seq_eq_nil_of_first only (run_seq_eq_nil (run_seq_eq_nil (run_cls_eq_nil ?_)))
  intro d same
  obtain rfl := Option.some.inj same
  exact beq_false_of_ne apart

/-- A path in which the word and the VMID come after one segment. -/
theorem vmidIn_pbsPath {front digits tail : Text} (apart : b ≠ w) (initial : b ≠ '/')
    (plain : '/' ∉ front) (some_digit : digits ≠ [])
    (isDigit : ∀ c ∈ digits, c.isDigit = true) :
    vmidIn (pbsPath (w :: word))
        ((b :: front) ++ '/' :: ((w :: word) ++ '/' :: (digits ++ '/' :: tail))) =
      some (numberOfDigits digits : Int) := by
  generalize rest : '/' :: ((w :: word) ++ '/' :: (digits ++ '/' :: tail)) = path
  have misses : ∀ a c behind, b :: front = a ++ c :: behind →
      run (pbsPath (w :: word)) ⟨⟨a.reverse ++ [], c :: (behind ++ path)⟩, []⟩ = [] := by
    intro a c behind cut
    cases a with
    | nil =>
        obtain ⟨rfl, rfl⟩ := List.cons.inj cut
        exact run_pbsPath_head initial apart
    | cons a others =>
        have member : c ∈ front := (List.cons.inj cut).2 ▸ List.mem_append_cons_self
        exact run_pbsPath_eq_nil (fun same => plain (same ▸ member)) (by simp)
  have stops : ∀ c ∈ ('/' :: tail).head?, c.isDigit = false := by
    intro c member
    obtain rfl := Option.some.inj member
    rfl
  have slash (before after : Text) (groups : List (Nat × Text)) :
      First (lit "/") ⟨⟨before, '/' :: after⟩, groups⟩ ⟨⟨'/' :: before, after⟩, groups⟩ :=
    First.lit
  have start : First (.alt .bos (lit "/")) ⟨⟨(b :: front).reverse ++ [], path⟩, []⟩
      ⟨⟨'/' :: ((b :: front).reverse ++ []), (w :: word) ++ '/' :: (digits ++ '/' :: tail)⟩, []⟩ := by
    rw [← rest]
    exact First.alt_right (by simp [run]) (slash _ _ _)
  have number (before : Text) : First (.group 1 (plus digit))
      ⟨⟨before, digits ++ '/' :: tail⟩, []⟩
      ⟨⟨digits.reverse ++ before, '/' :: tail⟩, [(1, digits)]⟩ :=
    (First.plus_cls some_digit isDigit stops).group (readBetween_append rfl)
  have stop (before : Text) (groups : List (Nat × Text)) : First (.alt (lit "/") .eos)
      ⟨⟨before, '/' :: tail⟩, groups⟩ ⟨⟨'/' :: before, tail⟩, groups⟩ :=
    First.alt_left (slash _ _ _)
  have first := start.seq (First.lit.seq ((slash _ _ _).seq ((number _).seq (stop _ _))))
  have found := (execFrom_append misses).trans (execFrom_of_head first)
  rw [vmidIn]
  exact congrArg (fun e : Option Found => e.bind fun found =>
    (found.group 1).map fun digits => (numberOfDigits digits : Int)) found

/-- A path that neither begins with the word nor has it between two slashes. -/
theorem vmidIn_pbsPath_eq_none {word s : Text} (front : ¬word ++ ['/'] <+: s)
    (inside : ¬ '/' :: word ++ ['/'] <:+: s) : vmidIn (pbsPath word) s = none := by
  have misses : Regex.exec (pbsPath word) s = none := by
    rw [exec_eq_none_iff, ← Bool.not_eq_true, test_iff]
    rintro ⟨before, after, d, rfl, e, starts, f, read, g, slash, -⟩
    obtain ⟨_, same, word_ahead, -⟩ := (Consumes.lit word e f).mp read
    rw [same] at word_ahead
    obtain ⟨_, rfl, slash_ahead, -⟩ := (Consumes.lit "/" f g).mp slash
    have behind : e.after = word ++ '/' :: g.after := word_ahead.trans (by rw [slash_ahead]; rfl)
    rcases starts with ⟨rfl, first⟩ | begins
    · obtain rfl : before = [] := List.reverse_eq_nil_iff.mp first
      refine front ⟨g.after, ?_⟩
      rw [List.append_assoc]
      exact behind.symm
    · obtain ⟨_, rfl, ahead, -⟩ := (Consumes.lit "/" _ e).mp begins
      have whole : after = '/' :: (word ++ '/' :: g.after) := ahead.trans (by rw [behind]; rfl)
      refine inside ⟨before, g.after, ?_⟩
      rw [whole]
      simp
  rw [vmidIn, misses, Option.bind_none]

end Paths

namespace BackupName

variable (name : BackupName)

theorem numberOfDigits_eq : numberOfDigits name.digits = name.vmid := by
  rw [numberOfDigits, nearestDouble, if_pos (name.small.trans (by decide)), vmid]

/-- What the parser reads from the path of a snapshot. -/
theorem vmidIn_snapshot :
    (name.kind = .vm → vmidIn pbsVm name.snapshot = some (name.vmid : Int)) ∧
      (name.kind = .lxc → vmidIn pbsVm name.snapshot = none ∧
        vmidIn pbsCt name.snapshot = some (name.vmid : Int)) := by
  rw [← name.numberOfDigits_eq]
  have front : ("backup" : Text) = 'b' :: ("ackup" : Text) := by decide
  refine ⟨fun vm => ?_, fun lxc => ⟨?_, ?_⟩⟩
  · unfold snapshot
    rw [vm, front]
    exact vmidIn_pbsPath (by decide) (by decide) (by decide) name.digits_ne_nil name.isDigit
  · refine vmidIn_pbsPath_eq_none ?_ fun inside => ?_
    · unfold snapshot
      rw [front]
      exact fun starts => absurd (List.cons_prefix_cons.mp starts).1 (by decide)
    · have segment := includes_iff.mpr inside
      rw [includes_slashes (by decide), name.split_snapshot, lxc, List.contains_iff_mem] at segment
      rcases List.mem_cons.mp segment with word | digits
      · exact absurd word (by decide)
      · have letter : 'v' ∈ name.digits := by
          rw [← List.mem_singleton.mp digits]
          decide
        exact absurd (name.isDigit _ letter) (by decide)
  · unfold snapshot
    rw [lxc, front]
    exact vmidIn_pbsPath (by decide) (by decide) (by decide) name.digits_ne_nil name.isDigit

/-- In the name of a backup the parser finds the guest that it is of. -/
theorem readGuest_of_names {volume : Text} (named : volume ∈ name.volumes) :
    readGuest volume = some (name.kind, (name.vmid : Int)) := by
  have ofFile (volume : Text) (last : (split '/' volume).getLastD volume = name.fileName) :
      readGuest volume = some (name.kind, (name.vmid : Int)) := by
    rw [← name.numberOfDigits_eq]
    cases kind : name.kind with
    | vm => simp only [readGuest, last, name.vmidIn_qemuFile kind]
    | lxc =>
        obtain ⟨none_found, found⟩ := name.vmidIn_lxcFile kind
        simp only [readGuest, last, none_found, found]
  rcases List.mem_cons.mp named with rfl | named
  · exact ofFile _ (by rw [split_of_notMem name.slash_notMem_fileName]; rfl)
  rcases List.mem_cons.mp named with rfl | named
  · refine ofFile _ ?_
    rw [split_append_cons, split_of_notMem name.slash_notMem_fileName]
    exact List.getLastD_concat
  obtain rfl := List.mem_singleton.mp named
  have last : (split '/' name.snapshot).getLastD name.snapshot = name.tail := by
    rw [name.split_snapshot]
    rfl
  have qemu : vmidIn qemuFile name.tail = none :=
    vmidIn_file_eq_none (name.free_of_once (by decide))
  have lxc : vmidIn lxcFile name.tail = none :=
    vmidIn_file_eq_none (name.free_of_once (by decide))
  cases kind : name.kind with
  | vm => simp only [readGuest, last, qemu, lxc, name.vmidIn_snapshot.1 kind]
  | lxc =>
      obtain ⟨none_found, found⟩ := name.vmidIn_snapshot.2 kind
      simp only [readGuest, last, qemu, lxc, none_found, found, Option.map_some]

end BackupName

end Proxora
