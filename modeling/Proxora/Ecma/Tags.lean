import Proxora.Ecma.Text

/-!
# Splitting a text at its tags

`s.split(/(<[^>]+>)/g)`: the texts between the tags, and the tags themselves. `splitTags_flatten`
says that the pieces are the only ones of their kind: texts in which no tag can begin, and tags, in
turn.
-/

namespace Ecma

/-- `<[^>]+>` at the beginning of a text: the tag, and what follows it. -/
def tagAt : Text → Option (Text × Text)
  | '<' :: rest =>
      match rest.dropWhile (· ≠ '>') with
      | '>' :: after =>
          if rest.takeWhile (· ≠ '>') = [] then none
          else some ('<' :: (rest.takeWhile (· ≠ '>') ++ ['>']), after)
      | _ => none
  | _ => none

/-- A text that matches `<[^>]+>`. -/
def IsTag (tag : Text) : Prop :=
  ∃ inner, inner ≠ [] ∧ '>' ∉ inner ∧ tag = '<' :: (inner ++ ['>'])

variable {s t tag after : Text} {c : Char}

theorem tagAt_of_ne (other : c ≠ '<') : tagAt (c :: s) = none := by
  unfold tagAt
  split
  · next same => exact absurd (List.cons.inj same).1 other
  · rfl

theorem tagAt_eq_some (found : tagAt s = some (tag, after)) : s = tag ++ after ∧ IsTag tag := by
  unfold tagAt at found
  split at found
  · next rest =>
    split at found
    · next close dropped =>
      split at found
      · cases found
      · next some =>
        cases found
        have whole := List.takeWhile_append_dropWhile (p := (· ≠ '>')) (l := rest)
        rw [dropped] at whole
        refine ⟨?_, _, some, ?_, rfl⟩
        · rw [List.cons_append, List.append_assoc, List.singleton_append, whole]
        · intro inside
          simpa using List.mem_takeWhile_imp inside
    · cases found
  · cases found

/-- At a tag the tag is found. -/
theorem tagAt_append (isTag : IsTag tag) (after : Text) :
    tagAt (tag ++ after) = some (tag, after) := by
  obtain ⟨inner, some, free, rfl⟩ := isTag
  have mark : ∀ c ∈ inner, (decide (c ≠ '>')) = true := by
    intro c inside
    rw [decide_eq_true_eq]
    rintro rfl
    exact free inside
  rw [List.cons_append, List.append_assoc, List.singleton_append, tagAt]
  rw [List.dropWhile_append_of_pos mark, List.takeWhile_append_of_pos mark,
    List.dropWhile_cons_of_neg (by decide), List.takeWhile_cons_of_neg (by decide),
    List.append_nil]
  exact if_neg some

/-- No tag begins where a `>` comes at once, or never. -/
theorem tagAt_open_eq_none_iff : tagAt ('<' :: s) = none ↔ s.head? = some '>' ∨ '>' ∉ s := by
  by_cases inside : '>' ∈ s
  · obtain ⟨inner, after, rfl, free⟩ := List.eq_append_cons_of_mem inside
    rw [or_iff_left (not_not.mpr inside)]
    cases inner with
    | nil =>
        rw [List.nil_append, tagAt, List.dropWhile_cons_of_neg (by decide)]
        exact iff_of_true (if_pos (List.takeWhile_cons_of_neg (by decide))) rfl
    | cons c inner =>
        have isTag : IsTag ('<' :: (c :: inner ++ ['>'])) :=
          ⟨c :: inner, List.cons_ne_nil c inner, free, rfl⟩
        have found := tagAt_append isTag after
        rw [List.cons_append, List.append_assoc, List.singleton_append] at found
        rw [found]
        refine iff_of_false nofun fun same => ?_
        rw [List.cons_append, List.head?_cons] at same
        cases same
        exact free List.mem_cons_self
  · refine iff_of_true ?_ (.inr inside)
    have whole : s.dropWhile (· ≠ '>') = [] := by
      rw [List.dropWhile_eq_nil_iff]
      intro c member
      rw [decide_eq_true_eq]
      rintro rfl
      exact inside member
    rw [tagAt, whole]

/-! ## Splitting -/

/-- The text gets one more character in front. -/
def consFirst (c : Char) : List Text → List Text
  | [] => [[c]]
  | first :: more => (c :: first) :: more

/-- `s.split(/(<[^>]+>)/g)`. -/
def splitTags (s : Text) : List Text :=
  match _found : tagAt s with
  | some (tag, after) => [] :: tag :: splitTags after
  | none =>
      match s with
      | [] => [[]]
      | c :: rest => consFirst c (splitTags rest)
termination_by s.length
decreasing_by
  · obtain ⟨rfl, inner, -, -, rfl⟩ := tagAt_eq_some _found
    rw [List.length_append, List.length_cons]
    omega
  · exact Nat.lt_succ_self _

theorem splitTags_of_some (found : tagAt s = some (tag, after)) :
    splitTags s = [] :: tag :: splitTags after := by
  rw [splitTags]
  split
  · next found' =>
    cases found.symm.trans found'
    rfl
  · next found' => cases found.symm.trans found'

theorem splitTags_nil : splitTags [] = [[]] := by
  rw [splitTags]
  rfl

theorem splitTags_cons (nothing : tagAt (c :: s) = none) :
    splitTags (c :: s) = consFirst c (splitTags s) := by
  rw [splitTags]
  split
  · next found => cases nothing.symm.trans found
  · rfl

/-- Case by case along `splitTags`. -/
theorem splitTags_induction {P : Text → List Text → Prop} (empty : P [] [[]])
    (tag : ∀ tag after, IsTag tag → P after (splitTags after) →
      P (tag ++ after) ([] :: tag :: splitTags after))
    (char : ∀ c s, tagAt (c :: s) = none → P s (splitTags s) →
      P (c :: s) (consFirst c (splitTags s)))
    (s : Text) : P s (splitTags s) := by
  induction length : s.length using Nat.strong_induction_on generalizing s with
  | _ n ih =>
      cases found : tagAt s with
      | some pair =>
          obtain ⟨here, after⟩ := pair
          rw [splitTags_of_some found]
          obtain ⟨rfl, isTag⟩ := tagAt_eq_some found
          refine tag here after isTag (ih after.length ?_ after rfl)
          obtain ⟨inner, -, -, rfl⟩ := isTag
          rw [← length, List.length_append, List.length_cons]
          omega
      | none =>
          cases s with
          | nil =>
              rw [splitTags_nil]
              exact empty
          | cons c s =>
              rw [splitTags_cons found]
              exact char c s found (ih s.length (length ▸ Nat.lt_succ_self _) s rfl)

theorem flatten_consFirst (c : Char) (pieces : List Text) :
    (consFirst c pieces).flatten = c :: pieces.flatten := by
  cases pieces <;> rfl

theorem flatten_splitTags (s : Text) : (splitTags s).flatten = s := by
  induction s using splitTags_induction with
  | empty => rfl
  | tag tag after isTag ih => rw [List.flatten_cons, List.flatten_cons, List.nil_append, ih]
  | char c s nothing ih => rw [flatten_consFirst, ih]

/-! ## The pieces -/

/-- No tag begins in the text, whatever follows it; `closes` says that a `>` follows. -/
def Untagged (closes : Prop) : Text → Prop
  | [] => True
  | c :: rest =>
      (c = '<' → rest.head? = some '>' ∨ ¬closes ∧ '>' ∉ rest) ∧ Untagged closes rest

/-- Texts and tags in turn, from a text to a text. -/
def Alternates : List Text → Prop
  | [] => False
  | [last] => Untagged False last
  | text :: tag :: rest => Untagged True text ∧ IsTag tag ∧ Alternates rest

variable {closes : Prop} {pieces : List Text}

theorem Untagged.of_append_right (untagged : Untagged closes (s ++ t)) : Untagged closes t := by
  induction s with
  | nil => exact untagged
  | cons c s ih => exact ih untagged.2

/-- A text in two parts, the second of which does not close a `<` at the end of the first. -/
theorem untagged_append (apart : t.head? ≠ some '>') :
    Untagged closes (s ++ t) ↔ Untagged (closes ∨ '>' ∈ t) s ∧ Untagged closes t := by
  induction s with
  | nil => exact (and_iff_right trivial).symm
  | cons c s ih =>
      rw [List.cons_append, Untagged, Untagged, ih, and_assoc]
      refine and_congr_left fun _ => imp_congr_right fun _ => ?_
      cases s with
      | nil => simp [apart]
      | cons d s => simp [and_assoc, and_comm, and_left_comm]

theorem untagged_of_notMem (free : '<' ∉ s) : Untagged closes s := by
  induction s with
  | nil => trivial
  | cons c s ih =>
      rw [List.mem_cons, not_or] at free
      exact ⟨fun same => absurd same.symm free.1, ih free.2⟩

theorem Untagged.imp {later : Prop} (untagged : Untagged closes s) (less : later → closes) :
    Untagged later s := by
  induction s with
  | nil => trivial
  | cons c s ih =>
      refine ⟨fun opens => (untagged.1 opens).imp_right fun never => ?_, ih untagged.2⟩
      exact ⟨fun later => never.1 (less later), never.2⟩

theorem IsTag.mem_close (isTag : IsTag tag) : '>' ∈ tag := by
  obtain ⟨inner, -, -, rfl⟩ := isTag
  simp

theorem Alternates.consFirst (alternates : Alternates pieces)
    (nothing : tagAt (c :: pieces.flatten) = none) : Alternates (consFirst c pieces) := by
  match pieces, alternates with
  | [last], untagged =>
      refine ⟨?_, untagged⟩
      rintro rfl
      rw [tagAt_open_eq_none_iff, List.flatten_singleton] at nothing
      exact nothing.imp_right fun never => ⟨not_false, never⟩
  | text :: tag :: rest, ⟨untagged, isTag, alternates⟩ =>
      refine ⟨⟨?_, untagged⟩, isTag, alternates⟩
      rintro rfl
      rw [tagAt_open_eq_none_iff] at nothing
      have closes : '>' ∈ (text :: tag :: rest).flatten :=
        List.mem_flatten.mpr ⟨tag, by simp, isTag.mem_close⟩
      have next := nothing.resolve_right (not_not.mpr closes)
      cases text with
      | nil =>
          obtain ⟨inner, -, -, rfl⟩ := isTag
          cases next
      | cons d text => exact .inl next

theorem alternates_splitTags (s : Text) : Alternates (splitTags s) := by
  induction s using splitTags_induction with
  | empty => trivial
  | tag tag after isTag ih => exact ⟨trivial, isTag, ih⟩
  | char c s nothing ih =>
      refine ih.consFirst ?_
      rw [flatten_splitTags]
      exact nothing

/-- Before a tag a text without tags is split off. -/
theorem splitTags_append_tag (untagged : Untagged True s) (isTag : IsTag tag) (after : Text) :
    splitTags (s ++ (tag ++ after)) = s :: tag :: splitTags after := by
  induction s with
  | nil => exact splitTags_of_some (tagAt_append isTag after)
  | cons c s ih =>
      rw [List.cons_append, splitTags_cons, ih untagged.2]
      · rfl
      · by_cases opens : c = '<'
        · subst opens
          rw [tagAt_open_eq_none_iff]
          have next := (untagged.1 rfl).resolve_right fun never => never.1 trivial
          rw [List.head?_append, next]
          exact .inl rfl
        · exact tagAt_of_ne opens

theorem splitTags_of_untagged (untagged : Untagged False s) : splitTags s = [s] := by
  induction s with
  | nil => exact splitTags_nil
  | cons c s ih =>
      rw [splitTags_cons, ih untagged.2]
      · rfl
      · by_cases opens : c = '<'
        · subst opens
          exact tagAt_open_eq_none_iff.mpr ((untagged.1 rfl).imp_right And.right)
        · exact tagAt_of_ne opens

/-- **Pieces.** Texts and tags in turn are what their text is split into. -/
theorem splitTags_flatten (alternates : Alternates pieces) :
    splitTags pieces.flatten = pieces := by
  induction pieces using Alternates.induct with
  | case1 => exact alternates.elim
  | case2 last =>
      rw [List.flatten_singleton]
      exact splitTags_of_untagged alternates
  | case3 text tag rest ih =>
      obtain ⟨untagged, isTag, later⟩ := alternates
      rw [List.flatten_cons, List.flatten_cons, splitTags_append_tag untagged isTag, ih later]

end Ecma
