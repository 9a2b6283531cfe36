import Proxora.Ecma.IpAddress

/-!
# Canonical texts of IPv6 addresses

`readIpv6_text` says that every address is read back from its canonical form, which is in lower
case; `text_of_first` and `text_of_mapped` say how the form of an address begins.
-/

namespace Ecma

/-! ## The canonical form is read back -/

theorem hexValue_digitChar : ∀ d < 16, hexValue d.digitChar = some d := by
  decide

theorem hexNumber_append_singleton (s : Text) (c : Char) :
    hexNumber (s ++ [c]) = 16 * hexNumber s + (hexValue c).getD 0 :=
  List.foldl_append

theorem hexNumber_toDigits (n : Nat) : hexNumber (Nat.toDigits 16 n) = n := by
  induction n using Nat.strongRecOn with
  | ind n ih =>
      rw [Nat.toDigits_eq_if (by decide)]
      split_ifs with small
      · rw [hexNumber, List.foldl_cons, List.foldl_nil, hexValue_digitChar n small]
        exact Nat.zero_add n
      · rw [hexNumber_append_singleton, ih (n / 16) (by omega),
          hexValue_digitChar (n % 16) (by omega), Option.getD_some]
        omega

theorem exists_digitChar_of_mem {n : Nat} {c : Char} (inside : c ∈ Nat.toDigits 16 n) :
    ∃ d < 16, c = d.digitChar := by
  induction n using Nat.strongRecOn with
  | ind n ih =>
      rw [Nat.toDigits_eq_if (by decide)] at inside
      split_ifs at inside with small
      · exact ⟨n, small, List.mem_singleton.mp inside⟩
      · rcases List.mem_append.mp inside with inside | inside
        · exact ih (n / 16) (by omega) inside
        · exact ⟨n % 16, by omega, List.mem_singleton.mp inside⟩

theorem isHexDigit_of_mem_toDigits (n : Nat) : ∀ c ∈ Nat.toDigits 16 n, isHexDigit c = true := by
  intro c inside
  obtain ⟨d, small, rfl⟩ := exists_digitChar_of_mem inside
  rw [isHexDigit, hexValue_digitChar d small]
  rfl

theorem readGroup_groupText (piece : Hextet) : readGroup (groupText piece) = some piece := by
  have short : (groupText piece).length ≤ 4 :=
    (Nat.length_toDigits_le_iff (by decide) (by decide)).mpr piece.isLt
  have long : 1 ≤ (groupText piece).length := Nat.length_toDigits_pos
  have value : hexNumber (groupText piece) = piece := hexNumber_toDigits piece
  have digits : (groupText piece).all isHexDigit = true :=
    List.all_eq_true.mpr (isHexDigit_of_mem_toDigits piece)
  rw [readGroup, if_pos (by rw [decide_eq_true long, decide_eq_true short, digits]; rfl),
    dif_pos (by rw [value]; exact piece.isLt)]
  exact congrArg some (Fin.ext value)

/-- A word between colons. -/
def GroupWord (word : Text) : Prop := word ≠ [] ∧ ':' ∉ word

theorem groupWord_groupText (piece : Hextet) : GroupWord (groupText piece) :=
  ⟨Nat.toDigits_ne_nil, fun inside =>
    absurd (isHexDigit_of_mem_toDigits piece _ inside) (by decide)⟩

theorem groupWord_of_mem {pieces : List Hextet} : ∀ word ∈ pieces.map groupText, GroupWord word := by
  intro word listed
  obtain ⟨piece, -, rfl⟩ := List.mem_map.mp listed
  exact groupWord_groupText piece

theorem GroupWord.head {word : Text} (group : GroupWord word) (t : Text) :
    (word ++ t).head? ≠ some ':' := by
  cases word with
  | nil => exact absurd rfl group.1
  | cons c word =>
      intro colon
      cases colon
      exact group.2 List.mem_cons_self

theorem head_join {words : List Text} (groups : ∀ word ∈ words, GroupWord word) :
    (join ':' words).head? ≠ some ':' := by
  cases words with
  | nil => exact fun colon => absurd colon (by decide)
  | cons word words =>
      have group := groups word List.mem_cons_self
      cases words with
      | nil =>
          rw [← List.append_nil (join ':' [word])]
          exact group.head []
      | cons next words => exact group.head _

theorem cutDouble_join {words : List Text} (groups : ∀ word ∈ words, GroupWord word) :
    cutDouble (join ':' words) = none := by
  induction words with
  | nil => rfl
  | cons word words ih =>
      have group := groups word List.mem_cons_self
      have others := fun w listed => groups w (List.mem_cons_of_mem word listed)
      cases words with
      | nil =>
          have cut := cutDouble_append_of_free group.2 []
          rw [List.append_nil] at cut
          exact cut
      | cons next words =>
          rw [join_cons (List.cons_ne_nil next words), cutDouble_append_of_free group.2, cutDouble,
            if_neg fun double => head_join others double.2, ih others]
          rfl

theorem getLast_join {words : List Text} (groups : ∀ word ∈ words, GroupWord word) :
    (join ':' words).getLast? ≠ some ':' := by
  induction words with
  | nil => exact fun colon => absurd colon (by decide)
  | cons word words ih =>
      have group := groups word List.mem_cons_self
      cases words with
      | nil => exact fun colon => group.2 (List.mem_of_getLast? colon)
      | cons next words =>
          have others := fun w listed => groups w (List.mem_cons_of_mem word listed)
          have later : join ':' (next :: words) ≠ [] := by
            have first := (others next List.mem_cons_self).1
            cases words with
            | nil => exact first
            | cons _ _ => exact List.append_ne_nil_of_left_ne_nil first _
          rw [join_cons (List.cons_ne_nil next words), List.getLast?_append,
            List.getLast?_cons_of_ne_nil later]
          intro colon
          rw [List.getLast?_eq_getLast_of_ne_nil later, Option.some_or] at colon
          exact ih others ((List.getLast?_eq_getLast_of_ne_nil later).trans colon)

theorem cutDouble_append_double {s : Text} (none : cutDouble s = none)
    (last : s.getLast? ≠ some ':') (back : Text) :
    cutDouble (s ++ ':' :: ':' :: back) = some (s, back) := by
  induction s with
  | nil => rfl
  | cons c s ih =>
      rw [cutDouble] at none
      split_ifs at none with double
      rw [Option.map_eq_none_iff] at none
      cases s with
      | nil =>
          have other : c ≠ ':' := fun same => last (congrArg some same)
          rw [List.singleton_append, cutDouble, if_neg fun both => other both.1]
          rfl
      | cons d s =>
          rw [List.getLast?_cons_cons] at last
          have single : ¬(c = ':' ∧ (d :: s ++ ':' :: ':' :: back).head? = some ':') := double
          rw [List.cons_append, cutDouble, if_neg single, ih none last]
          rfl

theorem readWords_groupText (pieces : List Hextet) :
    readWords (pieces.map groupText) = some pieces := by
  induction pieces with
  | nil => rfl
  | cons piece pieces ih =>
      cases pieces with
      | nil =>
          rw [List.map_singleton, readWords, readGroup_groupText]
          rfl
      | cons next pieces =>
          rw [List.map_cons, readWords, readGroup_groupText, ih]
          · rfl
          · exact List.cons_ne_nil _ _

theorem mapM_readGroup_groupText (pieces : List Hextet) :
    (pieces.map groupText).mapM readGroup = some pieces := by
  induction pieces with
  | nil => rfl
  | cons piece pieces ih =>
      rw [List.map_cons, List.mapM_cons, readGroup_groupText, ih]
      rfl

theorem split_join_groupText {pieces : List Hextet} (given : pieces ≠ []) :
    join ':' (pieces.map groupText) ≠ [] ∧
      split ':' (join ':' (pieces.map groupText)) = pieces.map groupText := by
  have words : pieces.map groupText ≠ [] := fun empty => given (List.map_eq_nil_iff.mp empty)
  have split := split_join words fun word listed => (groupWord_of_mem word listed).2
  refine ⟨fun empty => ?_, split⟩
  rw [empty] at split
  have first := @groupWord_of_mem pieces [] (by rw [← split]; exact List.mem_cons_self)
  exact first.1 rfl

theorem readFront_join (pieces : List Hextet) :
    readFront (join ':' (pieces.map groupText)) = some pieces := by
  by_cases none : pieces = []
  · rw [none]
    rfl
  · obtain ⟨some_text, split⟩ := split_join_groupText none
    rw [readFront, if_neg some_text, split, mapM_readGroup_groupText]

theorem readBack_join (pieces : List Hextet) :
    readBack (join ':' (pieces.map groupText)) = some pieces := by
  by_cases none : pieces = []
  · rw [none]
    rfl
  · obtain ⟨some_text, split⟩ := split_join_groupText none
    rw [readBack, if_neg some_text, split, readWords_groupText]

theorem zeroRun_eq_some {pieces : List Hextet} {start length : Nat}
    (run : zeroRun pieces = some (start, length)) :
    2 ≤ length ∧ start + length ≤ 8 ∧ ∀ piece ∈ (pieces.drop start).take length, piece = 0 := by
  obtain ⟨l, listed, found⟩ := List.exists_of_findSome?_eq_some run
  obtain ⟨i, first, same⟩ := Option.map_eq_some_iff.mp found
  cases same
  have zeros := List.find?_some first
  have within := List.mem_range.mp (List.mem_of_find?_eq_some first)
  rw [List.all_eq_true] at zeros
  refine ⟨?_, by omega, fun piece member => eq_of_beq (zeros piece member)⟩
  simp only [List.mem_cons, List.not_mem_nil, or_false] at listed
  omega

/-- Every address is read back from its canonical form. -/
theorem readIpv6_text (ip : Ipv6) : readIpv6 ip.text = some ip := by
  obtain ⟨pieces, length⟩ := ip
  have made (given : pieces.length = 8) : ofPieces pieces = some ⟨pieces, length⟩ := dif_pos given
  cases run : zeroRun pieces with
  | none =>
      have given : pieces ≠ [] := by
        rintro rfl
        cases length
      rw [Ipv6.text]
      dsimp only
      rw [run]
      dsimp only
      rw [readIpv6, cutDouble_join groupWord_of_mem]
      dsimp only
      rw [(split_join_groupText given).2, readWords_groupText]
      exact made length
  | some window =>
      obtain ⟨start, count⟩ := window
      obtain ⟨two, fits, zeros⟩ := zeroRun_eq_some run
      have front : (pieces.take start).length = start := by rw [List.length_take]; omega
      have back : (pieces.drop (start + count)).length = 8 - (start + count) := by
        rw [List.length_drop, length]
      have middle : (pieces.drop start).take count = List.replicate count 0 := by
        refine List.eq_replicate_iff.mpr ⟨?_, zeros⟩
        rw [List.length_take, List.length_drop]
        omega
      have whole : pieces.take start ++ List.replicate count 0 ++ pieces.drop (start + count) =
          pieces := by
        rw [← middle, List.append_assoc, ← List.drop_drop, List.take_append_drop,
          List.take_append_drop]
      rw [Ipv6.text]
      dsimp only
      rw [run]
      dsimp only
      rw [readIpv6, cutDouble_append_double (cutDouble_join groupWord_of_mem)
        (getLast_join groupWord_of_mem)]
      dsimp only
      rw [readFront_join, readBack_join]
      have rest : 8 - start - (8 - (start + count)) = count := by omega
      simp only [bind, Option.bind_some]
      rw [front, back, if_pos (by omega), rest, whole]
      exact made length

theorem lowerChar_digitChar : ∀ d < 16, lowerChar d.digitChar = [d.digitChar] := by
  decide

/-- The canonical form is in lower case. -/
theorem toLowerCase_text (ip : Ipv6) : toLowerCase ip.text = ip.text := by
  have group {pieces : List Hextet} {c : Char}
      (inside : c ∈ join ':' (pieces.map groupText)) : lowerChar c = [c] := by
    rcases mem_join inside with rfl | ⟨word, listed, within⟩
    · decide
    · obtain ⟨piece, -, rfl⟩ := List.mem_map.mp listed
      obtain ⟨d, small, rfl⟩ := exists_digitChar_of_mem within
      exact lowerChar_digitChar d small
  apply toLowerCase_of_fixed
  intro c inside
  rw [Ipv6.text] at inside
  split at inside
  · exact group inside
  · rcases List.mem_append.mp inside with front | rest
    · exact group front
    · rcases List.mem_cons.mp rest with rfl | rest
      · decide
      · rcases List.mem_cons.mp rest with rfl | back
        · decide
        · exact group back

/-! ## Canonical beginnings -/

/-- A first group other than zero begins the canonical form. -/
theorem text_of_first {ip : Ipv6} (other : ip.first ≠ 0) :
    ∃ rest, ip.text = groupText ip.first ++ ':' :: rest := by
  obtain ⟨pieces, length⟩ := ip
  obtain ⟨piece, rest, rfl⟩ := List.exists_cons_of_ne_nil
    (show pieces ≠ [] by rintro rfl; cases length)
  have first : Ipv6.first ⟨piece :: rest, length⟩ = piece := rfl
  rw [first] at other ⊢
  cases run : zeroRun (piece :: rest) with
  | none =>
      have more : rest.map groupText ≠ [] := by
        intro none
        rw [List.map_eq_nil_iff.mp none] at length
        cases length
      refine ⟨join ':' (rest.map groupText), ?_⟩
      rw [Ipv6.text]
      dsimp only
      rw [run]
      exact join_cons more
  | some window =>
      obtain ⟨start, count⟩ := window
      obtain ⟨two, -, zeros⟩ := zeroRun_eq_some run
      cases start with
      | zero =>
          refine absurd (zeros piece ?_) other
          obtain ⟨n, rfl⟩ : ∃ n, count = n + 1 := ⟨count - 1, by omega⟩
          exact List.mem_cons_self
      | succ start =>
          have shape : ∃ t, join ':' ((piece :: rest.take start).map groupText) ++ ':' :: ':' ::
              join ':' (((piece :: rest).drop (start + 1 + count)).map groupText) =
                groupText piece ++ ':' :: t := by
            cases rest.take start with
            | nil => exact ⟨_, rfl⟩
            | cons next more =>
                rw [List.map_cons, join_cons (by simp), List.append_assoc]
                exact ⟨_, rfl⟩
          rw [Ipv6.text]
          dsimp only
          rw [run]
          exact shape

/-- A mapped address begins with `::ffff:`. -/
theorem text_of_mapped {ip : Ipv6} {v4 : Ipv4} (mapped : ip.mapped = some v4) :
    ∃ tail, ip.text = ':' :: ':' :: 'f' :: 'f' :: 'f' :: 'f' :: ':' :: tail := by
  obtain ⟨pieces, length⟩ := ip
  rw [Ipv6.mapped] at mapped
  dsimp only at mapped
  split at mapped
  · rename_i high low ends
    split_ifs at mapped with begins
    have form : pieces = [0, 0, 0, 0, 0, 0xffff, high, low] := by
      rw [← List.take_append_drop 6 pieces, begins, ends]
      rfl
    subst form
    exact ⟨join ':' [groupText high, groupText low], rfl⟩
  · cases mapped

end Ecma
