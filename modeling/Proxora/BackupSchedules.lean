import Proxora.BackupJobs
import Proxora.Ecma.Captures
import Proxora.Ecma.Words

/-!
# The schedule of a backup job

What a calendar of Proxmox means, and what `parseBackupSchedule`, `formatBackupSchedule` and
`jobSchedulePayload` of `lib/backup.ts` make of it. `readCalendar` reads weekdays and ranges
of weekdays in front of a clock, short names and full ones; a range may go over the end of
the week.

`parse_format` is the round trip. `jobSchedulePayload_keeps_iff` says which calendars keep
their days: the parser passes over full names and over a range that goes over the end of the
week, and takes every day where nothing is left.
-/

namespace Proxora

open Ecma Ecma.Regex

/-! ## Calendars -/

/-- The place of a day in the week, from Monday. -/
def BackupDay.place : BackupDay → Nat
  | .mon => 0 | .tue => 1 | .wed => 2 | .thu => 3 | .fri => 4 | .sat => 5 | .sun => 6

def BackupDay.fullName : BackupDay → Text
  | .mon => "monday" | .tue => "tuesday" | .wed => "wednesday" | .thu => "thursday"
  | .fri => "friday" | .sat => "saturday" | .sun => "sunday"

/-- A weekday by its short name or by its full one. -/
structure DayName where
  day : BackupDay
  full : Bool
deriving DecidableEq, Repr

namespace DayName

def text (name : DayName) : Text := if name.full then name.day.fullName else name.day.name

def every : List DayName := backupDays.flatMap fun day => [⟨day, false⟩, ⟨day, true⟩]

end DayName

/-- A weekday, or all days from one to another. -/
inductive DayToken : Type
  | day (name : DayName)
  | range (first last : DayName)
deriving DecidableEq, Repr

namespace DayToken

def text : DayToken → Text
  | .day name => name.text
  | .range first last => first.text ++ ("..": Text) ++ last.text

/-- Short names only, and no range over the end of the week. -/
def Plain : DayToken → Prop
  | .day name => name.full = false
  | .range first last =>
      first.full = false ∧ last.full = false ∧ first.day.place ≤ last.day.place

instance : DecidablePred Plain
  | .day name => inferInstanceAs (Decidable (name.full = false))
  | .range _ _ => inferInstanceAs (Decidable (_ ∧ _ ∧ _))

/-- The day is one of the token. -/
def Covers (token : DayToken) (day : BackupDay) : Prop :=
  match token with
  | .day name => day = name.day
  | .range first last =>
      if first.day.place ≤ last.day.place then
        first.day.place ≤ day.place ∧ day.place ≤ last.day.place
      else first.day.place ≤ day.place ∨ day.place ≤ last.day.place

instance (day : BackupDay) : ∀ token, Decidable (Covers token day)
  | .day name => inferInstanceAs (Decidable (day = name.day))
  | .range first last => inferInstanceAs (Decidable
      (if first.day.place ≤ last.day.place then
        first.day.place ≤ day.place ∧ day.place ≤ last.day.place
      else first.day.place ≤ day.place ∨ day.place ≤ last.day.place))

/-- Every token. -/
def every : List DayToken :=
  DayName.every.map .day ++ DayName.every.flatMap fun first => DayName.every.map (.range first)

end DayToken

/-- Weekdays in front of a clock. -/
structure Calendar where
  tokens : List DayToken
  hour : Nat
  minute : Nat
deriving DecidableEq

namespace Calendar

/-- The calendar fires on this day; without weekdays on every day. -/
def FiresOn (calendar : Calendar) (day : BackupDay) : Prop :=
  calendar.tokens = [] ∨ ∃ token ∈ calendar.tokens, token.Covers day

instance (calendar : Calendar) (day : BackupDay) : Decidable (calendar.FiresOn day) :=
  inferInstanceAs (Decidable (_ ∨ _))

/-- Both calendars fire on the same days at the same time. -/
def SameAs (calendar other : Calendar) : Prop :=
  (∀ day, calendar.FiresOn day ↔ other.FiresOn day) ∧
    calendar.hour = other.hour ∧ calendar.minute = other.minute

/-- The days of the plain tokens. -/
def plainDays (tokens : List DayToken) : List BackupDay :=
  backupDays.filter fun day => ∃ token ∈ tokens, token.Plain ∧ token.Covers day

/-- The plain tokens fire on all days of the calendar; without plain tokens it fires on every
day. -/
def Kept (calendar : Calendar) : Prop :=
  if ∃ token ∈ calendar.tokens, token.Plain then
    ∀ token ∈ calendar.tokens, ∀ day, token.Covers day →
      ∃ plain ∈ calendar.tokens, plain.Plain ∧ plain.Covers day
  else ∀ day, calendar.FiresOn day

end Calendar

/-- A clock `HH:MM`. -/
def readClock : Text → Option (Nat × Nat)
  | [a, b, colon, c, d] =>
      let hour := numberOfDigits [a, b]
      let minute := numberOfDigits [c, d]
      if [a, b, c, d].all Char.isDigit && colon = ':' && hour < 24 && minute < 60 then
        some (hour, minute)
      else none
  | _ => none

def readToken (word : Text) : Option DayToken := DayToken.every.find? fun token => token.text = word

/-- Weekdays and ranges apart by commas or white space, and a clock behind them, in any
letter case. -/
def readCalendar (raw : Text) : Option Calendar :=
  let text := toLowerCase (trim raw)
  let front := text.take (text.length - 5)
  if front.getLast?.all (fun c => c = ',' || isSpace c) then do
    let tokens ← (dayTokens front).mapM readToken
    let (hour, minute) ← readClock (text.drop (text.length - 5))
    pure ⟨tokens, hour, minute⟩
  else none

example : (readCalendar "Mon,fri..sun 02:30") =
    some ⟨[.day ⟨.mon, false⟩, .range ⟨.fri, false⟩ ⟨.sun, false⟩], 2, 30⟩ := by
  decide +kernel

/-! ## The tokens to the code -/

theorem readToken_text {word : Text} {token : DayToken} (read : readToken word = some token) :
    token ∈ DayToken.every ∧ token.text = word := by
  refine ⟨List.mem_of_find?_eq_some read, ?_⟩
  simpa using List.find?_some read

/-- What `parseDayTokens` picks for a token: nothing for one that is not plain. -/
theorem tokenDays_text : ∀ token ∈ DayToken.every, ∀ day ∈ backupDays,
    (day ∈ tokenDays token.text ↔ token.Plain ∧ token.Covers day) := by
  have each : ∀ token ∈ DayToken.every, tokenDays token.text =
      backupDays.filter fun day => token.Plain ∧ token.Covers day := by decide +kernel
  intro token member day weekday
  rw [each token member, List.mem_filter, decide_eq_true_iff]
  exact and_iff_right weekday

theorem mem_backupDays (day : BackupDay) : day ∈ backupDays := by
  cases day <;> decide

theorem DayName.mem_every (name : DayName) : name ∈ DayName.every := by
  obtain ⟨day, full⟩ := name
  refine List.mem_flatMap.mpr ⟨day, mem_backupDays day, ?_⟩
  cases full with
  | false => exact List.mem_cons_self
  | true => exact List.mem_cons_of_mem _ List.mem_cons_self

theorem mem_every (token : DayToken) : token ∈ DayToken.every := by
  cases token with
  | day name => exact List.mem_append_left _ (List.mem_map_of_mem name.mem_every)
  | range first last =>
      exact List.mem_append_right _ (List.mem_flatMap.mpr
        ⟨first, first.mem_every, List.mem_map_of_mem last.mem_every⟩)

/-- No token has a digit, a comma or white space. -/
theorem token_chars : ∀ token ∈ DayToken.every, token.text ≠ [] ∧
    token.text.all (fun c => !c.isDigit && !(c = ',' || isSpace c)) = true := by
  decide +kernel

theorem DayName.text_injective : Function.Injective DayName.text := by
  have each : ∀ name ∈ DayName.every, ∀ other ∈ DayName.every,
      name.text = other.text → name = other := by decide +kernel
  exact fun name other => each name name.mem_every other other.mem_every

theorem DayName.no_dot (name : DayName) : '.' ∉ name.text := by
  have each : ∀ name ∈ DayName.every, '.' ∉ name.text := by decide +kernel
  exact each name name.mem_every

/-- The first dot of a range ends its first name. -/
theorem takeWhile_range (first last : DayName) :
    (DayToken.range first last).text.takeWhile (· ≠ '.') = first.text := by
  have front : ∀ c ∈ first.text, decide (c ≠ '.') = true := fun c inside =>
    decide_eq_true (ne_of_mem_of_not_mem inside first.no_dot)
  rw [DayToken.text, List.append_assoc, List.takeWhile_append_of_pos front]
  exact List.append_nil _

theorem DayToken.text_injective : Function.Injective DayToken.text := by
  have dotted : ∀ first last : DayName, '.' ∈ (DayToken.range first last).text := fun _ _ =>
    List.mem_append_left _ (List.mem_append_right _ List.mem_cons_self)
  intro token other same
  cases token with
  | day name =>
      cases other with
      | day name' => exact congrArg DayToken.day (DayName.text_injective same)
      | range first' last' =>
          have dot := dotted first' last'
          rw [← same] at dot
          exact absurd dot name.no_dot
  | range first last =>
      cases other with
      | day name' =>
          have dot := dotted first last
          rw [same] at dot
          exact absurd dot name'.no_dot
      | range first' last' =>
          have fronts : first.text = first'.text := by
            rw [← takeWhile_range first last, same, takeWhile_range]
          have backs : last.text = last'.text := by
            rw [DayToken.text, DayToken.text, fronts] at same
            exact List.append_cancel_left same
          rw [DayName.text_injective fronts, DayName.text_injective backs]

theorem readToken_of_token (token : DayToken) : readToken token.text = some token := by
  cases found : readToken token.text with
  | none =>
      have missing := List.find?_eq_none.mp found token (mem_every token)
      exact absurd (decide_eq_true rfl) missing
  | some other => exact congrArg some (DayToken.text_injective (readToken_text found).2)

/-! ## The clock to the code -/

/-- Two digits, a colon and two digits. -/
structure ClockText (clock : Text) (hour minute : Nat) : Prop where
  form : ∃ a b c d, clock = [a, b, ':', c, d] ∧
    (a.isDigit = true ∧ b.isDigit = true ∧ c.isDigit = true ∧ d.isDigit = true) ∧
      numberOfDigits [a, b] = hour ∧ numberOfDigits [c, d] = minute
  hour_lt : hour < 24
  minute_lt : minute < 60

theorem readClock_eq_some_iff {clock : Text} {hour minute : Nat} :
    readClock clock = some (hour, minute) ↔ ClockText clock hour minute := by
  constructor
  · intro read
    unfold readClock at read
    split at read
    · rename_i a b colon c d
      dsimp only at read
      split at read
      · rename_i holds
        simp only [List.all_cons, List.all_nil, Bool.and_true, Bool.and_eq_true,
          decide_eq_true_eq] at holds
        obtain ⟨⟨⟨⟨a', b', c', d'⟩, rfl⟩, early⟩, within⟩ := holds
        cases read
        exact ⟨⟨a, b, c, d, rfl, ⟨a', b', c', d'⟩, rfl, rfl⟩, early, within⟩
      · cases read
    · cases read
  · rintro ⟨⟨a, b, c, d, rfl, ⟨a', b', c', d'⟩, rfl, rfl⟩, early, within⟩
    simp [readClock, a', b', c', d', early, within]

/-- The search finds the clock behind a front without digits. -/
theorem exec_clock {front : Text} {a b c d : Char} (free : ∀ x ∈ front, x.isDigit = false)
    (digits : a.isDigit = true ∧ b.isDigit = true ∧ c.isDigit = true ∧ d.isDigit = true) :
    exec clockPattern (front ++ [a, b, ':', c, d]) =
      some ⟨⟨[d, c, ':', b, a] ++ (front.reverse ++ []), []⟩,
        [(0, [a, b, ':', c, d]), (2, [c, d]), (1, [a, b])]⟩ := by
  have misses : ∀ x e y, front = x ++ e :: y →
      run clockPattern ⟨⟨x.reverse ++ [], e :: (y ++ [a, b, ':', c, d])⟩, []⟩ = [] := by
    intro x e y cut
    have refused : e.isDigit = false := free e (cut ▸ List.mem_append_cons_self)
    refine run_group_eq_nil (run_seq_eq_nil (run_group_eq_nil (run_seq_eq_nil ?_)))
    refine run_cls_eq_nil fun f same => ?_
    obtain rfl := Option.some.inj same
    exact refused
  obtain ⟨a', b', c', d'⟩ := digits
  refine (execFrom_append misses).trans (execFrom_of_head ?_)
  generalize front.reverse ++ [] = before
  have hours : First (.group 1 (cat [digit, opt digit])) ⟨⟨before, [a, b, ':', c, d]⟩, []⟩
      ⟨⟨[b, a] ++ before, [':', c, d]⟩, [(1, [a, b])]⟩ :=
    ((First.cls a').seq (First.alt_left (First.cls b'))).group (readBetween_append rfl)
  have colon : First (lit ":") ⟨⟨[b, a] ++ before, [':', c, d]⟩, [(1, [a, b])]⟩
      ⟨⟨[':', b, a] ++ before, [c, d]⟩, [(1, [a, b])]⟩ := First.lit
  have minutes : First (.group 2 (cat [digit, digit]))
      ⟨⟨[':', b, a] ++ before, [c, d]⟩, [(1, [a, b])]⟩
      ⟨⟨[d, c, ':', b, a] ++ before, []⟩, [(2, [c, d]), (1, [a, b])]⟩ :=
    ((First.cls c').seq (First.cls d')).group (readBetween_append rfl)
  exact (hours.seq (colon.seq minutes)).group (readBetween_append rfl)

/-- `parseBackupSchedule` on a text that ends in a clock. -/
theorem parse_of_clock {raw front clock : Text} {hour minute : Nat}
    (cut : toLowerCase (trim raw) = front ++ clock) (reads : ClockText clock hour minute)
    (free : ∀ x ∈ front, x.isDigit = false) :
    parseBackupSchedule raw =
      ⟨padClock hour minute,
        if parseDayTokens (trim front) ≠ [] then parseDayTokens (trim front) else backupDays⟩ := by
  obtain ⟨⟨a, b, c, d, rfl, digits, rfl, rfl⟩, early, within⟩ := reads
  have found := exec_clock free digits
  rw [← cut] at found
  have back : (List.drop 5 ([d, c, ':', b, a] ++ (front.reverse ++ []))).reverse = front := by
    rw [List.append_nil]
    exact List.reverse_reverse front
  generalize match_found : (Found.mk ⟨[d, c, ':', b, a] ++ (front.reverse ++ []), []⟩
    [(0, [a, b, ':', c, d]), (2, [c, d]), (1, [a, b])]) = match_ at found
  have hours : match_.group 1 = some [a, b] := by rw [← match_found]; rfl
  have minutes : match_.group 2 = some [c, d] := by rw [← match_found]; rfl
  have ahead : (match_.before.drop ((match_.group 0).getD []).length).reverse = front := by
    rw [← match_found]
    exact back
  unfold parseBackupSchedule
  simp only [found, hours, minutes, ahead, Option.map_some, Option.getD_some]
  rw [Nat.min_eq_right (Nat.le_of_lt_succ early), Nat.min_eq_right (Nat.le_of_lt_succ within)]

/-! ## The days to the code -/

theorem dayTokens_trim (s : Text) : dayTokens (trim s) = dayTokens s :=
  words_trim (fun c space => by simp [space]) s

theorem texts_of_mapM {items : List Text} {tokens : List DayToken}
    (read : items.mapM readToken = some tokens) : items = tokens.map DayToken.text := by
  induction items generalizing tokens with
  | nil =>
      obtain rfl := Option.some.inj read
      rfl
  | cons word items ih =>
      rw [List.mapM_cons] at read
      obtain ⟨token, first, read⟩ := Option.bind_eq_some_iff.mp read
      obtain ⟨rest, later, read⟩ := Option.bind_eq_some_iff.mp read
      obtain rfl := Option.some.inj read
      rw [List.map_cons, (readToken_text first).2, ← ih later]

theorem mapM_texts (tokens : List DayToken) :
    (tokens.map DayToken.text).mapM readToken = some tokens := by
  induction tokens with
  | nil => rfl
  | cons token tokens ih =>
      rw [List.map_cons, List.mapM_cons, readToken_of_token, ih]
      rfl

/-- What is picked of a front that is made of tokens. -/
theorem parseDayTokens_of_tokens {front : Text} {tokens : List DayToken}
    (fixed : ∀ c ∈ front, lowerChar c = [c]) (made : dayTokens front = tokens.map DayToken.text) :
    parseDayTokens (trim front) = Calendar.plainDays tokens := by
  have lower : toLowerCase (trim front) = trim front :=
    toLowerCase_of_fixed fun c member => fixed c (mem_of_mem_trim member)
  unfold parseDayTokens Calendar.plainDays
  rw [lower, dayTokens_trim, made]
  refine List.filter_congr fun day _ => decide_eq_decide.mpr ?_
  rw [List.mem_flatMap]
  constructor
  · rintro ⟨_, listed, picked⟩
    obtain ⟨token, member, rfl⟩ := List.mem_map.mp listed
    exact ⟨token, member,
      (tokenDays_text token (mem_every token) day (mem_backupDays day)).mp picked⟩
  · rintro ⟨token, member, covers⟩
    exact ⟨token.text, List.mem_map_of_mem member,
      (tokenDays_text token (mem_every token) day (mem_backupDays day)).mpr covers⟩

/-- A front that is made of tokens has no digits. -/
theorem digit_free_of_tokens {front : Text} {tokens : List DayToken}
    (made : dayTokens front = tokens.map DayToken.text) : ∀ c ∈ front, c.isDigit = false := by
  intro c member
  cases breaks : (c = ',' || isSpace c : Bool) with
  | true =>
      rcases Bool.or_eq_true_iff.mp breaks with comma | space
      · rw [decide_eq_true_eq.mp comma]
        rfl
      · cases digit : c.isDigit with
        | true =>
            rw [isSpace_of_isDigit digit] at space
            cases space
        | false => rfl
  | false =>
      have nothing : ∀ d ∈ ([] : Text), (d = ',' || isSpace d : Bool) = false :=
        fun d none => absurd none List.not_mem_nil
      obtain ⟨word, found, inside⟩ := exists_word_of_mem breaks nothing member
      have listed : word ∈ tokens.map DayToken.text := made ▸ found
      obtain ⟨token, _, rfl⟩ := List.mem_map.mp listed
      have each := List.all_eq_true.mp (token_chars token (mem_every token)).2 c inside
      exact Bool.eq_false_of_not_eq_true' (Bool.and_eq_true_iff.mp each).1

/-! ## Calendars and their texts -/

/-- Nothing, or a text with a separator at its end. -/
def Apart (front : Text) : Prop := front.getLast?.all (fun c => c = ',' || isSpace c) = true

theorem readCalendar_eq_some_iff {raw : Text} {calendar : Calendar} :
    readCalendar raw = some calendar ↔
      ∃ front clock, toLowerCase (trim raw) = front ++ clock ∧ Apart front ∧
        dayTokens front = calendar.tokens.map DayToken.text ∧
        ClockText clock calendar.hour calendar.minute := by
  constructor
  · intro read
    unfold readCalendar at read
    dsimp only at read
    split at read
    · rename_i apart
      obtain ⟨tokens, words, read⟩ := Option.bind_eq_some_iff.mp read
      obtain ⟨⟨hour, minute⟩, clock, read⟩ := Option.bind_eq_some_iff.mp read
      obtain rfl := Option.some.inj read
      exact ⟨_, _, (List.take_append_drop _ _).symm, apart, texts_of_mapM words,
        readClock_eq_some_iff.mp clock⟩
    · cases read
  · rintro ⟨front, clock, cut, apart, made, reads⟩
    have five : clock.length = 5 := by
      obtain ⟨⟨_, _, _, _, rfl, _⟩, _⟩ := reads
      rfl
    have size : (front ++ clock).length - 5 = front.length := by
      rw [List.length_append, five, Nat.add_sub_cancel]
    unfold Apart at apart
    unfold readCalendar
    dsimp only
    rw [cut, size, List.take_left, List.drop_left, if_pos apart, made, mapM_texts,
      readClock_eq_some_iff.mpr reads]
    rfl

/-- `parseBackupSchedule` on a calendar. -/
theorem parse_of_calendar {raw : Text} {calendar : Calendar}
    (read : readCalendar raw = some calendar) :
    parseBackupSchedule raw = ⟨padClock calendar.hour calendar.minute,
      if Calendar.plainDays calendar.tokens ≠ [] then Calendar.plainDays calendar.tokens
      else backupDays⟩ := by
  obtain ⟨front, clock, cut, -, made, reads⟩ := readCalendar_eq_some_iff.mp read
  have fixed : ∀ c ∈ front, lowerChar c = [c] := by
    intro c member
    refine lowerChar_of_mem (s := trim raw) ?_
    rw [cut]
    exact List.mem_append_left clock member
  rw [parse_of_clock cut reads (digit_free_of_tokens made), parseDayTokens_of_tokens fixed made]

/-! ## What is written -/

theorem digit_bounds {c : Char} (digit : c.isDigit = true) : 48 ≤ c.toNat ∧ c.toNat ≤ 57 := by
  simp only [Char.isDigit, Bool.and_eq_true, decide_eq_true_eq, ge_iff_le,
    UInt32.le_iff_toNat_le] at digit
  exact digit

/-- A number below 60 has two digits. -/
theorem exists_padTwo {n : Nat} (small : n < 60) : ∃ a b, padTwo n = [a, b] ∧
    (a.isDigit = true ∧ b.isDigit = true) ∧ numberOfDigits [a, b] = n := by
  have each : ∀ n < 60, (padTwo n).length = 2 ∧ (padTwo n).all Char.isDigit = true ∧
      numberOfDigits (padTwo n) = n := by decide +kernel
  obtain ⟨two, digits, value⟩ := each n small
  obtain ⟨a, b, form⟩ := List.length_eq_two.mp two
  rw [form] at digits value
  simp only [List.all_cons, List.all_nil, Bool.and_true, Bool.and_eq_true] at digits
  exact ⟨a, b, form, digits, value⟩

theorem numberOfDigits_two {a b : Char} (first : a.isDigit = true) (second : b.isDigit = true) :
    numberOfDigits [a, b] = 10 * (a.toNat - 48) + (b.toNat - 48) := by
  have value : digitsValue [a, b] = 10 * (a.toNat - 48) + (b.toNat - 48) := by
    simp [digitsValue, Nat.ofDigitChars]
  have tens := (digit_bounds first).2
  have units := (digit_bounds second).2
  rw [numberOfDigits, nearestDouble, if_pos (by rw [value]; omega), value]

theorem padTwo_numberOfDigits {a b : Char} (first : a.isDigit = true) (second : b.isDigit = true) :
    padTwo (numberOfDigits [a, b]) = [a, b] := by
  have each : ∀ m < 10, ∀ n < 10,
      padTwo (10 * m + n) = [Char.ofNat (m + 48), Char.ofNat (n + 48)] := by decide +kernel
  obtain ⟨low, high⟩ := digit_bounds first
  obtain ⟨low', high'⟩ := digit_bounds second
  rw [numberOfDigits_two first second,
    each (a.toNat - 48) (by omega) (b.toNat - 48) (by omega), Nat.sub_add_cancel low,
    Nat.sub_add_cancel low', Char.ofNat_toNat, Char.ofNat_toNat]

theorem clockText_padClock {hour minute : Nat} (early : hour < 24) (within : minute < 60) :
    ClockText (padClock hour minute) hour minute := by
  obtain ⟨a, b, hours, ⟨a', b'⟩, hour_value⟩ := exists_padTwo (early.trans (by decide))
  obtain ⟨c, d, minutes, ⟨c', d'⟩, minute_value⟩ := exists_padTwo within
  refine ⟨⟨a, b, c, d, ?_, ⟨a', b', c', d'⟩, hour_value, minute_value⟩, early, within⟩
  rw [padClock, hours, minutes]
  rfl

theorem ClockText.padClock_eq {clock : Text} {hour minute : Nat}
    (reads : ClockText clock hour minute) : padClock hour minute = clock := by
  obtain ⟨⟨a, b, c, d, rfl, ⟨a', b', c', d'⟩, rfl, rfl⟩, -, -⟩ := reads
  rw [padClock, padTwo_numberOfDigits a' b', padTwo_numberOfDigits c' d']
  rfl

theorem ClockText.ends {clock : Text} {hour minute : Nat} (reads : ClockText clock hour minute) :
    (∀ c ∈ clock, lowerChar c = [c]) ∧ clock ≠ [] ∧ ∀ c ∈ clock, isSpace c = false := by
  obtain ⟨⟨a, b, c, d, rfl, ⟨a', b', c', d'⟩, -, -⟩, -, -⟩ := reads
  have fixed : ∀ x : Char, x.isDigit = true → lowerChar x = [x] := by
    intro x digit
    have each : ∀ n ∈ List.range' 48 10, lowerChar (Char.ofNat n) = [Char.ofNat n] := by decide
    obtain ⟨low, high⟩ := digit_bounds digit
    have named := each x.toNat (List.mem_range'_1.mpr ⟨low, Nat.lt_succ_of_le high⟩)
    rwa [Char.ofNat_toNat] at named
  refine ⟨?_, List.cons_ne_nil _ _, ?_⟩
  · simp only [List.mem_cons, List.not_mem_nil, or_false, forall_eq_or_imp, forall_eq]
    exact ⟨fixed a a', fixed b b', by decide, fixed c c', fixed d d'⟩
  · simp only [List.mem_cons, List.not_mem_nil, or_false, forall_eq_or_imp, forall_eq]
    exact ⟨isSpace_of_isDigit a', isSpace_of_isDigit b', by decide, isSpace_of_isDigit c',
      isSpace_of_isDigit d'⟩

namespace Calendar

/-- The days in the order of the week. -/
def ordered (days : List BackupDay) : List BackupDay := backupDays.filter fun day => day ∈ days

/-- The tokens that `formatBackupSchedule` writes for these days. -/
def writtenTokens (days : List BackupDay) : List DayToken :=
  if (ordered days).length = 0 ∨ (ordered days).length = 7 then []
  else (ordered days).map fun day => .day ⟨day, false⟩

end Calendar

open Calendar

theorem readCalendar_clock {clock : Text} {hour minute : Nat}
    (reads : ClockText clock hour minute) : readCalendar clock = some ⟨[], hour, minute⟩ := by
  obtain ⟨fixed, -, spaceless⟩ := reads.ends
  refine readCalendar_eq_some_iff.mpr ⟨[], clock, ?_, rfl, rfl, reads⟩
  rw [trim_of_notSpace spaceless]
  exact toLowerCase_of_fixed fixed

theorem name_chars (day : BackupDay) : day.name ≠ [] ∧
    ∀ c ∈ day.name, lowerChar c = [c] ∧ (c = ',' || isSpace c : Bool) = false := by
  have each : ∀ day ∈ backupDays, day.name ≠ [] ∧ day.name.all (fun c =>
      decide (lowerChar c = [c]) && !(c = ',' || isSpace c)) = true := by decide +kernel
  obtain ⟨proper, all⟩ := each day (mem_backupDays day)
  refine ⟨proper, fun c inside => ?_⟩
  obtain ⟨fixed, apart⟩ := Bool.and_eq_true_iff.mp (List.all_eq_true.mp all c inside)
  exact ⟨decide_eq_true_eq.mp fixed, Bool.eq_false_of_not_eq_true' apart⟩

/-- Days in front of a clock. -/
theorem readCalendar_days {days : List BackupDay} (some_day : days ≠ []) {clock : Text}
    {hour minute : Nat} (reads : ClockText clock hour minute) :
    readCalendar (join ',' (days.map BackupDay.name) ++ ' ' :: clock) =
      some ⟨days.map fun day => .day ⟨day, false⟩, hour, minute⟩ := by
  obtain ⟨fixed, some_char, spaceless⟩ := reads.ends
  have moved : join ',' (days.map BackupDay.name) ++ ' ' :: clock =
      (join ',' (days.map BackupDay.name) ++ [' ']) ++ clock := by
    rw [List.append_assoc]
    rfl
  have first : ∀ c ∈ (join ',' (days.map BackupDay.name) ++ ' ' :: clock).head?,
      isSpace c = false := by
    obtain ⟨day, rest, rfl⟩ := List.exists_cons_of_ne_nil some_day
    have starts : ∃ tail, join ',' ((day :: rest).map BackupDay.name) = day.name ++ tail := by
      cases rest with
      | nil => exact ⟨[], (List.append_nil _).symm⟩
      | cons next rest => exact ⟨_, join_cons (List.cons_ne_nil _ _)⟩
    obtain ⟨tail, form⟩ := starts
    obtain ⟨proper, each⟩ := name_chars day
    obtain ⟨c, name, spelled⟩ := List.exists_cons_of_ne_nil proper
    rw [form, spelled]
    rintro d ⟨⟩
    exact (Bool.or_eq_false_iff.mp (each c (spelled ▸ List.mem_cons_self)).2).2
  have last : ∀ c ∈ (join ',' (days.map BackupDay.name) ++ ' ' :: clock).getLast?,
      isSpace c = false := by
    rw [moved, List.getLast?_append_of_ne_nil _ some_char]
    exact fun c ends => spaceless c (List.mem_of_getLast? ends)
  have lower : ∀ c ∈ join ',' (days.map BackupDay.name) ++ ' ' :: clock, lowerChar c = [c] := by
    intro c member
    rcases List.mem_append.mp member with front | back
    · rcases mem_join front with rfl | ⟨name, listed, inside⟩
      · decide
      · obtain ⟨day, -, rfl⟩ := List.mem_map.mp listed
        exact ((name_chars day).2 c inside).1
    · rcases List.mem_cons.mp back with rfl | inside
      · decide
      · exact fixed c inside
  have proper : ∀ word ∈ days.map BackupDay.name,
      word ≠ [] ∧ ∀ d ∈ word, (d = ',' || isSpace d : Bool) = false := by
    intro word listed
    obtain ⟨day, -, rfl⟩ := List.mem_map.mp listed
    exact ⟨(name_chars day).1, fun d inside => ((name_chars day).2 d inside).2⟩
  refine readCalendar_eq_some_iff.mpr
    ⟨join ',' (days.map BackupDay.name) ++ [' '], clock, ?_, ?_, ?_, reads⟩
  · rw [trim_of_marks first last, toLowerCase_of_fixed lower, moved]
  · rw [Apart, List.getLast?_concat]
    rfl
  · refine (words_append_break _ rfl).trans ((words_join rfl proper).trans ?_)
    rw [List.map_map]
    rfl

/-- `formatBackupSchedule` writes a calendar of its days. -/
theorem readCalendar_format (days : List BackupDay) {clock : Text} {hour minute : Nat}
    (reads : ClockText clock hour minute) :
    readCalendar (formatBackupSchedule days clock) = some ⟨writtenTokens days, hour, minute⟩ := by
  have time : (parseBackupSchedule clock).time = clock := by
    rw [parse_of_calendar (readCalendar_clock reads)]
    exact reads.padClock_eq
  unfold formatBackupSchedule writtenTokens ordered
  dsimp only
  rw [time]
  split
  · exact readCalendar_clock reads
  · rename_i written
    exact readCalendar_days (fun none => written (Or.inl (congrArg List.length none))) reads

theorem mem_ordered {days : List BackupDay} {day : BackupDay} : day ∈ ordered days ↔ day ∈ days := by
  rw [ordered, List.mem_filter, decide_eq_true_eq]
  exact and_iff_right (mem_backupDays day)

theorem ordered_eq_all {days : List BackupDay} (all : (ordered days).length = 7) :
    ordered days = backupDays :=
  List.filter_sublist.eq_of_length all

/-- The days that are found again. -/
theorem plainDays_written (days : List BackupDay) :
    plainDays (writtenTokens days) = if (ordered days).length = 7 then [] else ordered days := by
  unfold writtenTokens
  by_cases all : (ordered days).length = 7
  · rw [if_pos (Or.inr all), if_pos all]
    decide
  · rw [if_neg all]
    by_cases none : (ordered days).length = 0
    · rw [if_pos (Or.inl none), List.length_eq_zero_iff.mp none]
      decide
    · rw [if_neg (not_or.mpr ⟨none, all⟩)]
      refine List.filter_congr fun day _ => decide_eq_decide.mpr ?_
      constructor
      · rintro ⟨_, listed, -, covers⟩
        obtain ⟨other, member, rfl⟩ := List.mem_map.mp listed
        rw [show day = other from covers]
        exact mem_ordered.mp member
      · intro member
        exact ⟨_, List.mem_map_of_mem (mem_ordered.mpr member), rfl, rfl⟩

/-- The round trip: what is written is read as the same days and clock. -/
theorem parse_format (days : List BackupDay) {clock : Text} {hour minute : Nat}
    (reads : ClockText clock hour minute) :
    parseBackupSchedule (formatBackupSchedule days clock) =
      ⟨clock, if ordered days ≠ [] then ordered days else backupDays⟩ := by
  rw [parse_of_calendar (readCalendar_format days reads), plainDays_written, reads.padClock_eq]
  by_cases all : (ordered days).length = 7
  · rw [if_pos all, ordered_eq_all all]
    rfl
  · rw [if_neg all]

theorem ordered_filter (picks : BackupDay → Bool) :
    ordered (backupDays.filter picks) = backupDays.filter picks := by
  refine List.filter_congr fun day member => Bool.eq_iff_iff.mpr ?_
  rw [decide_eq_true_eq, List.mem_filter]
  exact and_iff_right member

theorem ordered_parseDayTokens (raw : Text) :
    ordered (parseDayTokens raw) = parseDayTokens raw := by
  unfold parseDayTokens
  exact ordered_filter _

theorem picked_shape (raw : Text) :
    let days := if parseDayTokens raw ≠ [] then parseDayTokens raw else backupDays
    ordered days = days ∧ days ≠ [] := by
  dsimp only
  split
  · rename_i some_day
    exact ⟨ordered_parseDayTokens raw, some_day⟩
  · exact ⟨ordered_filter fun _ => true, by decide⟩

/-- What `parseBackupSchedule` returns, whatever the text. -/
theorem parse_shape (raw : Text) :
    (∃ hour minute, ClockText (parseBackupSchedule raw).time hour minute) ∧
      ordered (parseBackupSchedule raw).days = (parseBackupSchedule raw).days ∧
      (parseBackupSchedule raw).days ≠ [] := by
  have capped : ∀ (found : Option Found) (part : Found → Nat) (most other : Nat), other ≤ most →
      (found.map fun found => min most (part found)).getD other < most + 1 := by
    intro found part most other small
    cases found with
    | none => exact Nat.lt_succ_of_le small
    | some found => exact Nat.lt_succ_of_le (Nat.min_le_left most _)
  unfold parseBackupSchedule
  dsimp only
  generalize exec clockPattern (toLowerCase (trim raw)) = timeMatch
  constructor
  · exact ⟨_, _, clockText_padClock (capped timeMatch _ 23 2 (by decide))
      (capped timeMatch _ 59 0 (by decide))⟩
  · exact picked_shape _

/-- Reading what is written changes nothing any more. -/
theorem parse_stable (raw : Text) :
    parseBackupSchedule (formatBackupSchedule (parseBackupSchedule raw).days
      (parseBackupSchedule raw).time) = parseBackupSchedule raw := by
  obtain ⟨⟨hour, minute, reads⟩, inOrder, some_day⟩ := parse_shape raw
  rw [parse_format _ reads, inOrder, if_pos some_day]

/-! ## Which calendars keep their days -/

theorem exists_covered (token : DayToken) : ∃ day, token.Covers day := by
  cases token with
  | day name => exact ⟨name.day, rfl⟩
  | range first last =>
      refine ⟨first.day, ?_⟩
      unfold DayToken.Covers
      dsimp only
      split
      · rename_i upward
        exact ⟨Nat.le_refl _, upward⟩
      · exact Or.inl (Nat.le_refl _)

theorem mem_plainDays {tokens : List DayToken} {day : BackupDay} :
    day ∈ plainDays tokens ↔ ∃ token ∈ tokens, token.Plain ∧ token.Covers day := by
  rw [plainDays, List.mem_filter, decide_eq_true_eq]
  exact and_iff_right (mem_backupDays day)

theorem firesOn_written {days : List BackupDay} (some_day : days ≠ []) {hour minute : Nat}
    {day : BackupDay} :
    (Calendar.mk (writtenTokens days) hour minute).FiresOn day ↔ day ∈ days := by
  have listed : ordered days ≠ [] := by
    obtain ⟨first, member⟩ := List.exists_mem_of_ne_nil days some_day
    exact List.ne_nil_of_mem (mem_ordered.mpr member)
  unfold FiresOn writtenTokens
  dsimp only
  by_cases all : (ordered days).length = 7
  · rw [if_pos (Or.inr all)]
    have member : day ∈ days := mem_ordered.mp (ordered_eq_all all ▸ mem_backupDays day)
    exact ⟨fun _ => member, fun _ => Or.inl rfl⟩
  · rw [if_neg (not_or.mpr ⟨fun none => listed (List.length_eq_zero_iff.mp none), all⟩)]
    constructor
    · rintro (none | ⟨_, token, covers⟩)
      · exact absurd (List.map_eq_nil_iff.mp none) listed
      · obtain ⟨other, member, rfl⟩ := List.mem_map.mp token
        rw [show day = other from covers]
        exact mem_ordered.mp member
    · intro member
      exact Or.inr ⟨_, List.mem_map_of_mem (mem_ordered.mpr member), rfl⟩

/-- The days that are read of a calendar are those on which it fires. -/
theorem reads_days_iff (calendar : Calendar) :
    (∀ day, day ∈ (if plainDays calendar.tokens ≠ [] then plainDays calendar.tokens
        else backupDays) ↔ calendar.FiresOn day) ↔ calendar.Kept := by
  unfold Kept
  by_cases plain : ∃ token ∈ calendar.tokens, token.Plain
  · obtain ⟨token, member, holds⟩ := plain
    have some_day : plainDays calendar.tokens ≠ [] := by
      obtain ⟨day, covers⟩ := exists_covered token
      exact List.ne_nil_of_mem (mem_plainDays.mpr ⟨token, member, holds, covers⟩)
    have some_token : calendar.tokens ≠ [] := List.ne_nil_of_mem member
    rw [if_pos some_day, if_pos ⟨token, member, holds⟩]
    constructor
    · intro same other listed day covers
      exact mem_plainDays.mp ((same day).mpr (Or.inr ⟨other, listed, covers⟩))
    · intro kept day
      constructor
      · intro picked
        obtain ⟨other, listed, -, covers⟩ := mem_plainDays.mp picked
        exact Or.inr ⟨other, listed, covers⟩
      · rintro (none | ⟨other, listed, covers⟩)
        · exact absurd none some_token
        · exact mem_plainDays.mpr (kept other listed day covers)
  · have none : plainDays calendar.tokens = [] := by
      refine List.eq_nil_iff_forall_not_mem.mpr fun day picked => plain ?_
      obtain ⟨token, listed, holds, -⟩ := mem_plainDays.mp picked
      exact ⟨token, listed, holds⟩
    rw [if_neg (not_not.mpr none), if_neg plain]
    exact forall_congr' fun day => ⟨fun same => same.mp (mem_backupDays day),
      fun fires => ⟨fun _ => fires, fun _ => mem_backupDays day⟩⟩

/-- The payload of this schedule. -/
def scheduleEntries (schedule : Text) : List (Text × Value) := [("schedule", .str schedule)]

theorem scheduleEntries_inj {schedule other : Text}
    (same : scheduleEntries schedule = scheduleEntries other) : schedule = other := by
  have each : ∀ key : Text, [(key, Value.str schedule)] = [(key, Value.str other)] →
      schedule = other := by
    intro key equal
    simpa using equal
  exact each _ same

theorem payload_eq (raw : Text) : jobSchedulePayload raw = scheduleEntries
    (formatBackupSchedule (parseBackupSchedule raw).days (parseBackupSchedule raw).time) := rfl

/-- The written schedule fires on the days of the calendar at its time. -/
def PreservesSchedule (raw : Text) : Prop :=
  ∀ calendar, readCalendar raw = some calendar →
    ∃ schedule kept, jobSchedulePayload raw = scheduleEntries schedule ∧
      readCalendar schedule = some kept ∧ kept.SameAs calendar

/-- The payload of what was written is the same once more. -/
def PayloadIdempotent (raw : Text) : Prop :=
  ∃ schedule, jobSchedulePayload raw = scheduleEntries schedule ∧
    jobSchedulePayload schedule = jobSchedulePayload raw

/-- Days and a clock that are written are read again, all seven days for none. -/
def ScheduleRoundTrip (days : List BackupDay) (clock : Text) : Prop :=
  (parseBackupSchedule (formatBackupSchedule days clock)).time = clock ∧
    ∀ day, day ∈ (parseBackupSchedule (formatBackupSchedule days clock)).days ↔
      days = [] ∨ day ∈ days

theorem payloadIdempotent (raw : Text) : PayloadIdempotent raw := by
  refine ⟨_, rfl, ?_⟩
  rw [payload_eq, payload_eq, parse_stable raw]

theorem scheduleRoundTrip (days : List BackupDay) {clock : Text} {hour minute : Nat}
    (read : readClock clock = some (hour, minute)) : ScheduleRoundTrip days clock := by
  unfold ScheduleRoundTrip
  rw [parse_format days (readClock_eq_some_iff.mp read)]
  refine ⟨rfl, fun day => ?_⟩
  dsimp only
  split
  · rename_i some_day
    have listed : days ≠ [] := by
      rintro rfl
      exact some_day (by decide)
    exact mem_ordered.trans (or_iff_right listed).symm
  · rename_i none
    have empty : days = [] := List.eq_nil_iff_forall_not_mem.mpr fun other member =>
      List.ne_nil_of_mem (mem_ordered.mpr member) (not_not.mp none)
    exact ⟨fun _ => Or.inl empty, fun _ => mem_backupDays day⟩

theorem preservesSchedule_iff (raw : Text) :
    PreservesSchedule raw ↔ ∀ calendar, readCalendar raw = some calendar → calendar.Kept := by
  refine forall₂_congr fun calendar read => ?_
  obtain ⟨-, -, some_day⟩ := parse_shape raw
  obtain ⟨front, clock, -, -, -, reads⟩ := readCalendar_eq_some_iff.mp read
  have time : ClockText (parseBackupSchedule raw).time calendar.hour calendar.minute := by
    rw [parse_of_calendar read]
    exact clockText_padClock reads.hour_lt reads.minute_lt
  have written := readCalendar_format (parseBackupSchedule raw).days time
  rw [← reads_days_iff calendar]
  have days : (parseBackupSchedule raw).days =
      if plainDays calendar.tokens ≠ [] then plainDays calendar.tokens else backupDays := by
    rw [parse_of_calendar read]
  rw [← days]
  constructor
  · rintro ⟨schedule, kept, sent, found, same, -⟩
    obtain rfl := scheduleEntries_inj ((payload_eq raw).symm.trans sent)
    obtain rfl := Option.some.inj (written.symm.trans found)
    exact fun day => (firesOn_written some_day).symm.trans (same day)
  · intro same
    exact ⟨_, _, payload_eq raw, written, fun day => (firesOn_written some_day).trans (same day), rfl, rfl⟩

/-- Editing keeps the schedule of a calendar that is kept, and of no other; days and clocks
come back, and the payload is stable, for every text. -/
theorem jobSchedulePayload_keeps_iff (raw : Text) :
    (PreservesSchedule raw ∧ PayloadIdempotent raw ∧
      ∀ days clock hour minute, readClock clock = some (hour, minute) →
        ScheduleRoundTrip days clock) ↔
      ∀ calendar, readCalendar raw = some calendar → calendar.Kept := by
  refine Iff.trans ⟨fun holds => holds.1, fun preserves => ⟨preserves, payloadIdempotent raw, ?_⟩⟩
    (preservesSchedule_iff raw)
  intro days clock hour minute read
  exact scheduleRoundTrip days read

/-- Friday to Monday becomes every day. -/
theorem weekend_range_lost : ¬PreservesSchedule "fri..mon 02:00" := by
  intro preserves
  have read : readCalendar "fri..mon 02:00" =
      some ⟨[.range ⟨.fri, false⟩ ⟨.mon, false⟩], 2, 0⟩ := by decide +kernel
  obtain ⟨schedule, kept, sent, found, same, -⟩ := preserves _ read
  have written : formatBackupSchedule (parseBackupSchedule "fri..mon 02:00").days
      (parseBackupSchedule "fri..mon 02:00").time = "02:00" := by decide +kernel
  rw [payload_eq, written] at sent
  obtain rfl := scheduleEntries_inj sent
  have all : readCalendar "02:00" = some ⟨[], 2, 0⟩ := by decide +kernel
  obtain rfl := Option.some.inj (all.symm.trans found)
  have fires := (same .wed).mp (Or.inl rfl)
  revert fires
  decide

end Proxora
