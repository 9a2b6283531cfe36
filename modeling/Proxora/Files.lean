import Mathlib.Data.List.Infix
import Proxora.Runs

/-!
# Files

A file system as names and the files they stand for.  A program that has opened
a file keeps writing to it after its name is gone or stands for another file,
so names and contents are two maps.  `overwrite` is the positional write: it
fills a gap before its position with zeros.
-/

namespace Files

abbrev Bytes := List UInt8

/-! ## Contents -/

/-- `bytes` written at a position; writing nothing changes nothing. -/
def overwrite (content : Bytes) (start : Nat) (bytes : Bytes) : Bytes :=
  if bytes = [] then content
  else
    content.take start ++ List.replicate (start - content.length) 0 ++ bytes ++
      content.drop (start + bytes.length)

variable {content bytes source : Bytes} {start i : Nat}

theorem length_overwrite (some : bytes ≠ []) :
    (overwrite content start bytes).length = max content.length (start + bytes.length) := by
  rw [overwrite, if_neg some]
  simp only [List.length_append, List.length_take, List.length_replicate, List.length_drop]
  omega

/-- A write never shortens the content. -/
theorem length_overwrite_le {limit : Nat} (short : content.length ≤ limit)
    (inside : start + bytes.length ≤ limit) : (overwrite content start bytes).length ≤ limit := by
  by_cases none : bytes = []
  · rw [overwrite, if_pos none]
    exact short
  · rw [length_overwrite none]
    exact Nat.max_le.mpr ⟨short, inside⟩

/-- A write at the end appends. -/
theorem overwrite_length : overwrite content content.length bytes = content ++ bytes := by
  by_cases none : bytes = []
  · rw [overwrite, if_pos none, none, List.append_nil]
  · rw [overwrite, if_neg none, List.take_length, Nat.sub_self, List.replicate_zero,
      List.append_nil, List.drop_of_length_le (Nat.le_add_right _ _), List.append_nil]

/-- The bytes written are there. -/
theorem getElem?_overwrite_inside (low : start ≤ i) (high : i < start + bytes.length) :
    (overwrite content start bytes)[i]? = bytes[i - start]? := by
  have some : bytes ≠ [] := by
    rintro rfl
    rw [List.length_nil] at high
    omega
  have before : (content.take start ++ List.replicate (start - content.length) 0).length =
      start := by
    simp only [List.length_append, List.length_take, List.length_replicate]
    omega
  rw [overwrite, if_neg some, List.append_assoc _ bytes, List.getElem?_append_right (by omega),
    before, List.getElem?_append_left (by omega)]

/-- The rest of the content stays. -/
theorem getElem?_overwrite_outside (outside : i < start ∨ start + bytes.length ≤ i)
    (short : i < content.length) : (overwrite content start bytes)[i]? = content[i]? := by
  by_cases none : bytes = []
  · rw [overwrite, if_pos none]
  have before : (content.take start ++ List.replicate (start - content.length) 0).length =
      start := by
    simp only [List.length_append, List.length_take, List.length_replicate]
    omega
  rw [overwrite, if_neg none, List.append_assoc _ bytes]
  rcases outside with low | high
  · have taken : i < (content.take start).length := by
      rw [List.length_take]
      omega
    rw [List.getElem?_append_left (by omega), List.getElem?_append_left taken,
      List.getElem?_take_of_lt low]
  · rw [List.getElem?_append_right (by omega), before, List.getElem?_append_right (by omega),
      List.getElem?_drop]
    congr 1
    omega

/-- A gap is filled with zeros. -/
theorem getElem?_overwrite_gap (some : bytes ≠ []) (beyond : content.length ≤ i)
    (low : i < start) : (overwrite content start bytes)[i]? = Option.some 0 := by
  have taken : (content.take start).length = content.length := by
    rw [List.length_take]
    omega
  rw [overwrite, if_neg some, List.append_assoc _ bytes, List.getElem?_append_left (by
      simp only [List.length_append, List.length_replicate]
      omega), List.getElem?_append_right (by omega), taken, List.getElem?_replicate]
  rw [if_pos (by omega)]

/-- A piece of the source, position by position. -/
theorem getElem?_of_piece (piece : bytes <+: source.drop start) (low : start ≤ i)
    (high : i < start + bytes.length) : bytes[i - start]? = source[i]? := by
  have inside : i - start < bytes.length := by omega
  have found := List.prefix_iff_getElem?.mp piece (i - start) inside
  rw [List.getElem?_drop, Nat.add_sub_cancel' low] at found
  rw [found, List.getElem?_eq_getElem inside]

/-- The bytes of the source between the end of the content and a position are zeros. -/
def ZeroGap (source : Bytes) (stop start : Nat) : Prop :=
  ∀ i, i < start → stop ≤ i → source[i]? = some 0

instance (source : Bytes) (stop start : Nat) : Decidable (ZeroGap source stop start) :=
  inferInstanceAs (Decidable (∀ i, i < start → stop ≤ i → source[i]? = some 0))

/-- Writing a piece of the source at its place keeps a prefix of the source,
when no gap is left or one of zeros. -/
theorem overwrite_prefix (before : content <+: source) (piece : bytes <+: source.drop start)
    (gap : ZeroGap source content.length start) : overwrite content start bytes <+: source := by
  by_cases none : bytes = []
  · rw [overwrite, if_pos none]
    exact before
  rw [List.prefix_iff_getElem?] at before ⊢
  intro i inside
  rw [length_overwrite none] at inside
  rw [← List.getElem?_eq_getElem]
  by_cases low : i < start
  · by_cases short : i < content.length
    · rw [getElem?_overwrite_outside (.inl low) short, before i short,
        List.getElem?_eq_getElem short]
    · rw [getElem?_overwrite_gap none (by omega) low]
      exact gap i low (by omega)
  · by_cases high : i < start + bytes.length
    · rw [getElem?_overwrite_inside (by omega) high, getElem?_of_piece piece (by omega) high]
    · have short : i < content.length := by omega
      rw [getElem?_overwrite_outside (.inr (by omega)) short, before i short,
        List.getElem?_eq_getElem short]

/-! ## Writes on their way -/

/-- A write on its way to a file. -/
structure Write where
  start : Nat
  bytes : Bytes
deriving DecidableEq, Repr

/-- What is left of a write when its first bytes are in the file. -/
def Write.rest (w : Write) (k : Nat) : Write := ⟨w.start + k, w.bytes.drop k⟩

/-- The position is one that a write is to fill. -/
def Covers (writes : List Write) (i : Nat) : Prop :=
  ∃ w ∈ writes, w.start ≤ i ∧ i < w.start + w.bytes.length

/-- The bytes below the end of the file that have not arrived are zeros. -/
def NoHole (content : Bytes) (writes : List Write) : Prop :=
  ∀ w ∈ writes, ∀ j, j < w.bytes.length → w.start + j < content.length → w.bytes[j]? = some 0

instance (content : Bytes) (writes : List Write) : Decidable (NoHole content writes) :=
  inferInstanceAs (Decidable (∀ w ∈ writes, ∀ j, j < w.bytes.length →
    w.start + j < content.length → w.bytes[j]? = some 0))

/-- A file on its way to `target`, of which the bytes before `pos` are written
or on their way. -/
structure Filling (target : Bytes) (pos : Nat) (content : Bytes) (writes : List Write) :
    Prop where
  bound : pos ≤ target.length
  short : content.length ≤ pos
  piece : ∀ w ∈ writes, w.bytes <+: target.drop w.start ∧ w.start + w.bytes.length ≤ pos
  filled : ∀ i, i < pos → content[i]? = target[i]? ∨
    Covers writes i ∧ (content[i]? = none ∨ content[i]? = some 0)

namespace Filling

variable {target chunk : Bytes} {pos k : Nat} {writes after : List Write} {w : Write}

/-- What is there is the front of the target. -/
theorem front (inside : pos ≤ target.length) (held : content = target.take pos) :
    Filling target pos content [] where
  bound := inside
  short := by
    rw [held, List.length_take]
    exact Nat.min_le_left _ _
  piece := by
    intro w member
    cases member
  filled := by
    intro i low
    rw [held, List.getElem?_take_of_lt low]
    exact .inl rfl

/-- The next piece is sent. -/
theorem launch (filling : Filling target pos content writes) (piece : chunk <+: target.drop pos)
    (kept : ∀ v ∈ writes, v ∈ after) (sent : ⟨pos, chunk⟩ ∈ after)
    (only : ∀ v ∈ after, v ∈ writes ∨ v = ⟨pos, chunk⟩) :
    Filling target (pos + chunk.length) content after where
  bound := by
    have fits := piece.length_le
    rw [List.length_drop] at fits
    have bound := filling.bound
    omega
  short := Nat.le_add_right_of_le filling.short
  piece := by
    intro v member
    rcases only v member with old | rfl
    · obtain ⟨part, inside⟩ := filling.piece v old
      exact ⟨part, Nat.le_add_right_of_le inside⟩
    · exact ⟨piece, Nat.le_refl _⟩
  filled := by
    intro i low
    by_cases old : i < pos
    · rcases filling.filled i old with there | ⟨⟨v, member, inside⟩, empty⟩
      · exact .inl there
      · exact .inr ⟨⟨v, kept v member, inside⟩, empty⟩
    · have beyond : content.length ≤ i := Nat.le_trans filling.short (Nat.le_of_not_lt old)
      exact .inr ⟨⟨_, sent, Nat.le_of_not_lt old, low⟩, .inl (List.getElem?_eq_none beyond)⟩

/-- The first `k` bytes of a write arrive. -/
theorem land (filling : Filling target pos content writes) (member : w ∈ writes)
    (inside : k ≤ w.bytes.length)
    (kept : ∀ v ∈ writes, v = w ∨ v ∈ after)
    (left : k < w.bytes.length → w.rest k ∈ after)
    (only : ∀ v ∈ after, v ∈ writes ∨ v = w.rest k) :
    Filling target pos (overwrite content w.start (w.bytes.take k)) after where
  bound := filling.bound
  short := by
    have fits := (filling.piece w member).2
    apply length_overwrite_le filling.short
    rw [List.length_take]
    omega
  piece := by
    intro v held
    rcases only v held with old | rfl
    · exact filling.piece v old
    · obtain ⟨part, fits⟩ := filling.piece w member
      have dropped := List.IsPrefix.drop part k
      rw [List.drop_drop] at dropped
      refine ⟨dropped, ?_⟩
      simp only [Write.rest, List.length_drop]
      omega
  filled := by
    intro i low
    obtain ⟨part, fits⟩ := filling.piece w member
    have taken : (w.bytes.take k).length = k := List.length_take_of_le inside
    by_cases none : w.bytes.take k = []
    · -- Nothing arrives, and what is left of the write is the write.
      have nothing : k = 0 := by
        rw [none] at taken
        exact taken.symm
      rw [overwrite, if_pos none]
      rcases filling.filled i low with there | ⟨⟨v, held, covered⟩, empty⟩
      · exact .inl there
      · refine .inr ⟨?_, empty⟩
        rcases kept v held with rfl | held
        · refine ⟨_, left (by omega), ?_⟩
          simpa [Write.rest, nothing] using covered
        · exact ⟨v, held, covered⟩
    by_cases arrived : w.start ≤ i ∧ i < w.start + k
    · have piece : w.bytes.take k <+: target.drop w.start := (List.take_prefix k _).trans part
      rw [getElem?_overwrite_inside arrived.1 (by omega),
        getElem?_of_piece piece arrived.1 (by omega)]
      exact .inl rfl
    · -- Elsewhere the write fills at most a gap.
      have same : (overwrite content w.start (w.bytes.take k))[i]? = content[i]? ∨
          content[i]? = Option.none ∧ ((overwrite content w.start (w.bytes.take k))[i]? = Option.none ∨
            (overwrite content w.start (w.bytes.take k))[i]? = some 0) := by
        by_cases short : i < content.length
        · exact .inl (getElem?_overwrite_outside (by omega) short)
        · have beyond : content.length ≤ i := by omega
          refine .inr ⟨List.getElem?_eq_none beyond, ?_⟩
          by_cases gap : i < w.start
          · exact .inr (getElem?_overwrite_gap none beyond gap)
          · refine .inl (List.getElem?_eq_none ?_)
            rw [length_overwrite none, taken]
            omega
      have covers : Covers writes i → Covers after i := by
        rintro ⟨v, held, covered⟩
        rcases kept v held with rfl | held
        · refine ⟨_, left (by omega), ?_⟩
          simp only [Write.rest, List.length_drop]
          omega
        · exact ⟨v, held, covered⟩
      rcases filling.filled i low with there | ⟨covered, empty⟩
      · rcases same with same | ⟨missing, -⟩
        · exact .inl (same.trans there)
        · have bound := filling.bound
          rw [missing, List.getElem?_eq_getElem (by omega)] at there
          cases there
      · rcases same with same | ⟨-, empty⟩
        · exact .inr ⟨covers covered, same ▸ empty⟩
        · exact .inr ⟨covers covered, empty⟩

/-- When nothing is on its way and all was sent, the file is the target. -/
theorem whole (filling : Filling target target.length content []) : content = target := by
  apply List.ext_getElem?
  intro i
  by_cases low : i < target.length
  · rcases filling.filled i low with there | ⟨⟨w, member, -⟩, -⟩
    · exact there
    · cases member
  · have beyond : target.length ≤ i := by omega
    rw [List.getElem?_eq_none beyond, List.getElem?_eq_none (filling.short.trans beyond)]


/-- Without a hole the file is a prefix of the target. -/
theorem is_prefix (filling : Filling target pos content writes)
    (noHole : NoHole content writes) : content <+: target := by
  rw [List.prefix_iff_getElem?]
  intro i short
  rw [← List.getElem?_eq_getElem]
  have low : i < pos := Nat.lt_of_lt_of_le short filling.short
  rcases filling.filled i low with there | ⟨⟨w, member, below, above⟩, empty⟩
  · exact there.symm
  · have found := getElem?_of_piece (filling.piece w member).1 below above
    have inside : i - w.start < w.bytes.length := by omega
    rw [noHole w member (i - w.start) inside (by omega)] at found
    rw [List.getElem?_eq_getElem short] at empty ⊢
    rcases empty with missing | empty
    · cases missing
    · exact found.symm.trans empty.symm

end Filling

/-! ## Names -/

open Runs

/-- Names stand for files, which are numbered; each name has a file of its own,
and the numbers from `next` are free. -/
structure FileSystem (Path : Type) where
  entry : Path → Option Nat
  content : Nat → Bytes
  next : Nat
  bound : ∀ p f, entry p = some f → f < next
  distinct : ∀ p q f, entry p = some f → entry q = some f → p = q

namespace FileSystem

variable {Path : Type}

/-- The file of a name, and what is in it. -/
def look (fs : FileSystem Path) (p : Path) : Option (Nat × Bytes) :=
  (fs.entry p).map fun f => (f, fs.content f)

def read (fs : FileSystem Path) (p : Path) : Option Bytes := (fs.look p).map (·.2)

def size (fs : FileSystem Path) (f : Nat) : Nat := (fs.content f).length

/-- The contents of one file changed. -/
def put (fs : FileSystem Path) (f : Nat) (bytes : Bytes) : FileSystem Path :=
  { fs with content := Function.update fs.content f bytes }

/-- A positional write to a file. -/
def write (fs : FileSystem Path) (f start : Nat) (bytes : Bytes) : FileSystem Path :=
  fs.put f (overwrite (fs.content f) start bytes)

variable {fs : FileSystem Path} {p q : Path} {f g : Nat} {bytes : Bytes}

theorem look_eq_some :
    fs.look p = some (f, bytes) ↔ fs.entry p = some f ∧ fs.content f = bytes := by
  constructor
  · intro seen
    obtain ⟨h, entry, same⟩ := Option.map_eq_some_iff.mp seen
    cases same
    exact ⟨entry, rfl⟩
  · rintro ⟨entry, rfl⟩
    rw [look, entry, Option.map_some]

theorem look_eq_none : fs.look p = none ↔ fs.entry p = none := Option.map_eq_none_iff

theorem read_of_look (seen : fs.look p = some (f, bytes)) : fs.read p = some bytes := by
  rw [read, seen, Option.map_some]

theorem look_of_read (held : fs.read p = some bytes) : ∃ f, fs.look p = some (f, bytes) := by
  obtain ⟨⟨f, found⟩, seen, rfl⟩ := Option.map_eq_some_iff.mp held
  exact ⟨f, seen⟩

theorem entry_eq_look (fs : FileSystem Path) (p : Path) : fs.entry p = (fs.look p).map (·.1) := by
  cases held : fs.entry p with
  | none => rw [look_eq_none.mpr held, Option.map_none]
  | some f => rw [look_eq_some.mpr ⟨held, rfl⟩, Option.map_some]

/-- Two names never stand for one file. -/
theorem look_distinct {other : Bytes} (seen : fs.look p = some (f, bytes))
    (also : fs.look q = some (f, other)) : p = q :=
  fs.distinct p q f (look_eq_some.mp seen).1 (look_eq_some.mp also).1

/-- The same file with the same content. -/
theorem look_congr {fs' : FileSystem Path} (entry : fs'.entry p = fs.entry p)
    (content : ∀ f, fs.entry p = some f → fs'.content f = fs.content f) :
    fs'.look p = fs.look p := by
  rw [look, look, entry]
  cases held : fs.entry p with
  | none => rfl
  | some f => rw [Option.map_some, Option.map_some, content f held]

theorem look_put_self (held : fs.entry p = some f) : (fs.put f bytes).look p = some (f, bytes) :=
  look_eq_some.mpr ⟨held, Function.update_self ..⟩

theorem look_put_other (other : fs.entry p ≠ some f) : (fs.put f bytes).look p = fs.look p := by
  refine look_congr rfl fun g held => Function.update_of_ne ?_ ..
  rintro rfl
  exact other held

theorem look_write_self (seen : fs.look p = some (f, bytes)) (start : Nat) (piece : Bytes) :
    (fs.write f start piece).look p = some (f, overwrite bytes start piece) := by
  obtain ⟨held, rfl⟩ := look_eq_some.mp seen
  exact look_put_self held

/-- A write of nothing. -/
theorem look_write_nil {start : Nat} : (fs.write f start []).look p = fs.look p := by
  refine look_congr rfl fun g _ => ?_
  by_cases same : g = f
  · rw [same]
    exact (Function.update_self ..).trans (if_pos rfl)
  · exact Function.update_of_ne same ..

theorem look_write_other {start : Nat} {piece : Bytes} (other : fs.entry p ≠ some f) :
    (fs.write f start piece).look p = fs.look p :=
  look_put_other other

variable [DecidableEq Path]

def unlink (fs : FileSystem Path) (p : Path) : FileSystem Path where
  entry := Function.update fs.entry p none
  content := fs.content
  next := fs.next
  bound := fun q f held => fs.bound q f (update_none_eq_some held).2
  distinct := fun q r f held also =>
    fs.distinct q r f (update_none_eq_some held).2 (update_none_eq_some also).2

/-- A new and empty file for a name. -/
def create (fs : FileSystem Path) (p : Path) : FileSystem Path where
  entry := Function.update fs.entry p (some fs.next)
  content := Function.update fs.content fs.next []
  next := fs.next + 1
  bound := by
    intro q f held
    rcases update_eq_some held with ⟨-, rfl⟩ | ⟨-, held⟩
    · exact Nat.lt_succ_self _
    · exact Nat.lt_succ_of_lt (fs.bound q f held)
  distinct := by
    intro q r f held also
    rcases update_eq_some held with ⟨rfl, rfl⟩ | ⟨-, held⟩
    · rcases update_eq_some also with ⟨rfl, -⟩ | ⟨-, also⟩
      · rfl
      · exact absurd (fs.bound r _ also) (Nat.lt_irrefl _)
    · rcases update_eq_some also with ⟨-, rfl⟩ | ⟨-, also⟩
      · exact absurd (fs.bound q _ held) (Nat.lt_irrefl _)
      · exact fs.distinct q r f held also

/-- The file of a name, made when there is none; with `truncate` it is emptied. -/
def openFile (fs : FileSystem Path) (p : Path) (truncate : Bool) : FileSystem Path × Nat :=
  match fs.entry p with
  | some f => (if truncate then fs.put f [] else fs, f)
  | none => (fs.create p, fs.next)

/-- The file of one name is put under another. -/
def rename (fs : FileSystem Path) (p q : Path) : FileSystem Path :=
  match found : fs.entry p with
  | none => fs
  | some f =>
      { entry := Function.update (Function.update fs.entry p none) q (some f)
        content := fs.content
        next := fs.next
        bound := by
          intro r g held
          rcases update_eq_some held with ⟨-, rfl⟩ | ⟨-, held⟩
          · exact fs.bound p g found
          · exact fs.bound r g (update_none_eq_some held).2
        distinct := by
          intro r r' g held also
          rcases update_eq_some held with ⟨rfl, rfl⟩ | ⟨-, left⟩
          · rcases update_eq_some also with ⟨rfl, -⟩ | ⟨-, right⟩
            · rfl
            · obtain ⟨other, right⟩ := update_none_eq_some right
              exact (other (fs.distinct _ _ _ right found)).elim
          · obtain ⟨other, left⟩ := update_none_eq_some left
            rcases update_eq_some also with ⟨-, rfl⟩ | ⟨-, right⟩
            · exact (other (fs.distinct _ _ _ left found)).elim
            · exact fs.distinct _ _ _ left (update_none_eq_some right).2 }

theorem look_unlink_self : (fs.unlink p).look p = none :=
  look_eq_none.mpr (Function.update_self ..)

theorem look_unlink_other (other : q ≠ p) : (fs.unlink p).look q = fs.look q :=
  look_congr (Function.update_of_ne other ..) fun _ _ => rfl

/-- The file opened is empty, or as it was. -/
theorem look_openFile_self {truncate : Bool} :
    (fs.openFile p truncate).1.look p =
      some ((fs.openFile p truncate).2, if truncate then [] else (fs.read p).getD []) := by
  unfold openFile
  split
  · next f held =>
      split
      · exact look_put_self held
      · have seen : fs.look p = some (f, fs.content f) := look_eq_some.mpr ⟨held, rfl⟩
        rw [read_of_look seen]
        exact seen
  · next held =>
      have missing : fs.read p = none := by rw [read, look_eq_none.mpr held, Option.map_none]
      rw [missing, Option.getD_none, ite_self]
      exact look_eq_some.mpr ⟨Function.update_self .., Function.update_self ..⟩

theorem openFile_of_entry (held : fs.entry p = some f) : fs.openFile p false = (fs, f) := by
  unfold openFile
  split
  · next g found =>
      rw [held] at found
      cases found
      rfl
  · next missing =>
      rw [held] at missing
      cases missing

theorem look_openFile_other {truncate : Bool} (other : q ≠ p) :
    (fs.openFile p truncate).1.look q = fs.look q := by
  unfold openFile
  split
  · next f held =>
      have different : fs.entry q ≠ some f := fun same => other (fs.distinct q p f same held)
      split
      · exact look_put_other different
      · rfl
  · refine look_congr (Function.update_of_ne other ..) fun f held => ?_
    exact Function.update_of_ne (Nat.ne_of_lt (fs.bound q f held)) ..

theorem rename_eq (held : fs.entry p = some f) :
    (fs.rename p q).entry = Function.update (Function.update fs.entry p none) q (some f) ∧
      (fs.rename p q).content = fs.content := by
  unfold rename
  split
  · next missing =>
      rw [held] at missing
      cases missing
  · next g found =>
      rw [held] at found
      cases found
      exact ⟨rfl, rfl⟩

/-- The file is found under its new name. -/
theorem look_rename_self (seen : fs.look p = some (f, bytes)) :
    (fs.rename p q).look q = some (f, bytes) := by
  obtain ⟨held, rfl⟩ := look_eq_some.mp seen
  obtain ⟨entry, content⟩ := rename_eq held
  rw [look_eq_some, entry, content]
  exact ⟨Function.update_self .., rfl⟩

theorem look_rename_source (seen : fs.look p = some (f, bytes)) (other : p ≠ q) :
    (fs.rename p q).look p = none := by
  obtain ⟨entry, -⟩ := rename_eq (look_eq_some.mp seen).1
  rw [look_eq_none, entry, Function.update_of_ne other]
  exact Function.update_self ..

theorem look_rename_other {r : Path} (source : r ≠ p) (target : r ≠ q) :
    (fs.rename p q).look r = fs.look r := by
  cases held : fs.entry p with
  | none =>
      unfold rename
      split
      · rfl
      · next found =>
          rw [held] at found
          cases found
  | some f =>
      obtain ⟨entry, content⟩ := rename_eq (q := q) held
      refine look_congr ?_ fun g _ => congrFun content g
      rw [entry, Function.update_of_ne target, Function.update_of_ne source]

end FileSystem

end Files
