import Mathlib

/-!
# Sections of directives

A configuration file of the INI kind, after its lines have been told apart: a heading opens
a section, a directive adds one value to the section that is open. `assemble` collects the
sections, `print` is the other way round, and `assemble_print` is the round trip.

The other results are about entries that nobody printed. A value that a section has for a
key stays its first one (`first_value_stays`), and `weight_assemble` says that the sections
hold the values of the entries, each as often as it is given.
-/

namespace Ini

variable {κ ν : Type}

/-- A line that counts. -/
inductive Entry (κ ν : Type) : Type
  | heading (name : κ)
  | directive (key : κ) (value : ν)
deriving DecidableEq, Repr

/-- A section: under each key the values that it was given, in this order. -/
structure Section (κ ν : Type) where
  name : κ
  fields : List (κ × List ν)
deriving DecidableEq, Repr

section Reading

variable [DecidableEq κ]

/-- One more value for a key. -/
def pushField (key : κ) (value : ν) : List (κ × List ν) → List (κ × List ν)
  | [] => [(key, [value])]
  | (known, values) :: fields =>
      if known = key then (known, values ++ [value]) :: fields
      else (known, values) :: pushField key value fields

/-- The values of a key. -/
def valuesOf (key : κ) (fields : List (κ × List ν)) : List ν := (fields.lookup key).getD []

/-- One entry; the section that is open comes first. -/
def step : List (Section κ ν) → Entry κ ν → List (Section κ ν)
  | sections, .heading name => ⟨name, []⟩ :: sections
  | [], .directive _ _ => []
  | current :: closed, .directive key value =>
      { current with fields := pushField key value current.fields } :: closed

/-- The sections in the order of their headings. -/
def assemble (entries : List (Entry κ ν)) : List (Section κ ν) :=
  (entries.foldl step []).reverse

/-- The entries of a section. -/
def Section.print (given : Section κ ν) : List (Entry κ ν) :=
  .heading given.name ::
    given.fields.flatMap fun field => field.2.map fun value => .directive field.1 value

/-! ## Reading what was printed -/

theorem pushField_new {key : κ} {value : ν} {fields : List (κ × List ν)}
    (new : key ∉ fields.map Prod.fst) :
    pushField key value fields = fields ++ [(key, [value])] := by
  induction fields with
  | nil => rfl
  | cons field fields ih =>
      rw [List.map_cons, List.mem_cons, not_or] at new
      rw [pushField, if_neg (Ne.symm new.1), ih new.2]
      rfl

theorem pushField_last {key : κ} {value : ν} {values : List ν} {fields : List (κ × List ν)}
    (new : key ∉ fields.map Prod.fst) :
    pushField key value (fields ++ [(key, values)]) = fields ++ [(key, values ++ [value])] := by
  induction fields with
  | nil => exact if_pos rfl
  | cons field fields ih =>
      rw [List.map_cons, List.mem_cons, not_or] at new
      rw [List.cons_append, pushField, if_neg (Ne.symm new.1), ih new.2]
      rfl

/-- More values for the last key. -/
theorem foldl_values {key : κ} {known more : List ν} {name : κ} {fields : List (κ × List ν)}
    {closed : List (Section κ ν)} (new : key ∉ fields.map Prod.fst) :
    (more.map fun value => Entry.directive key value).foldl step
        (⟨name, fields ++ [(key, known)]⟩ :: closed) =
      ⟨name, fields ++ [(key, known ++ more)]⟩ :: closed := by
  induction more generalizing known with
  | nil => rw [List.append_nil]; rfl
  | cons value more ih =>
      rw [List.map_cons, List.foldl_cons, step, pushField_last new, ih, List.append_assoc]
      rfl

/-- The fields of a section are read back after those that it has. -/
theorem foldl_fields {name : κ} {known more : List (κ × List ν)} {closed : List (Section κ ν)}
    (distinct : ((known ++ more).map Prod.fst).Nodup) (given : ∀ field ∈ more, field.2 ≠ []) :
    (more.flatMap fun field => field.2.map fun value => Entry.directive field.1 value).foldl step
        (⟨name, known⟩ :: closed) =
      ⟨name, known ++ more⟩ :: closed := by
  induction more generalizing known with
  | nil => rw [List.append_nil]; rfl
  | cons field more ih =>
      obtain ⟨key, values⟩ := field
      obtain ⟨value, values, rfl⟩ :=
        List.exists_cons_of_ne_nil (given (key, values) List.mem_cons_self)
      have new : key ∉ known.map Prod.fst := by
        rw [List.map_append, List.map_cons] at distinct
        intro member
        exact List.nodup_append.mp distinct |>.2.2 key member key List.mem_cons_self rfl
      have shifted : known ++ (key, value :: values) :: more =
          (known ++ [(key, value :: values)]) ++ more := by
        rw [List.append_assoc]
        rfl
      rw [List.flatMap_cons, List.foldl_append, List.map_cons, List.foldl_cons, step,
        pushField_new new, foldl_values new, List.singleton_append, shifted]
      rw [shifted] at distinct
      exact ih distinct fun field member => given field (List.mem_cons_of_mem _ member)

/-- A section that can be read back: no key twice, no key without a value. -/
def Section.Readable (given : Section κ ν) : Prop :=
  (given.fields.map Prod.fst).Nodup ∧ ∀ field ∈ given.fields, field.2 ≠ []

theorem foldl_print {given : Section κ ν} {closed : List (Section κ ν)}
    (readable : given.Readable) : given.print.foldl step closed = given :: closed := by
  rw [Section.print, List.foldl_cons, step]
  exact foldl_fields readable.1 readable.2

/-- Sections are read as they were printed. -/
theorem assemble_print {sections : List (Section κ ν)}
    (readable : ∀ given ∈ sections, given.Readable) :
    assemble (sections.flatMap Section.print) = sections := by
  have reading (closed : List (Section κ ν)) :
      (sections.flatMap Section.print).foldl step closed = sections.reverse ++ closed := by
    induction sections generalizing closed with
    | nil => rfl
    | cons given sections ih =>
        rw [List.flatMap_cons, List.foldl_append, foldl_print (readable given List.mem_cons_self),
          ih fun later member => readable later (List.mem_cons_of_mem given member),
          List.reverse_cons, List.append_assoc]
        rfl
  rw [assemble, reading, List.append_nil, List.reverse_reverse]

/-! ## Reading anything -/

theorem valuesOf_cons_self (key : κ) (values : List ν) (fields : List (κ × List ν)) :
    valuesOf key ((key, values) :: fields) = values := by
  rw [valuesOf, List.lookup_cons_self]
  rfl

theorem valuesOf_cons_of_ne {key other : κ} (different : key ≠ other) (values : List ν)
    (fields : List (κ × List ν)) :
    valuesOf key ((other, values) :: fields) = valuesOf key fields := by
  rw [valuesOf, List.lookup_cons, beq_false_of_ne different]
  rfl

theorem head_valuesOf_pushField {key other : κ} {first value : ν} {fields : List (κ × List ν)}
    (known : (valuesOf key fields).head? = some first) :
    (valuesOf key (pushField other value fields)).head? = some first := by
  induction fields with
  | nil => exact absurd known (by simp [valuesOf])
  | cons field fields ih =>
      obtain ⟨name, values⟩ := field
      rw [pushField]
      by_cases named : key = name
      · subst named
        have starts : values.head? = some first := by
          simpa [valuesOf] using known
        split_ifs
        · simp [valuesOf, starts]
        · simpa [valuesOf] using starts
      · have later : (valuesOf key fields).head? = some first := by
          simpa [valuesOf, List.lookup_cons, beq_false_of_ne named] using known
        split_ifs
        · simpa [valuesOf, List.lookup_cons, beq_false_of_ne named] using later
        · simpa [valuesOf, List.lookup_cons, beq_false_of_ne named] using ih later

/-- What was the first value of a key in the first section stays it. -/
theorem foldl_first {key : κ} {first : ν} (opened : List (Section κ ν)) (oldest : Section κ ν)
    (more : List (Entry κ ν)) (known : (valuesOf key oldest.fields).head? = some first) :
    ∃ later result, more.foldl step (opened ++ [oldest]) = later ++ [result] ∧
      (valuesOf key result.fields).head? = some first := by
  induction more generalizing opened oldest with
  | nil => exact ⟨opened, oldest, rfl, known⟩
  | cons entry more ih =>
      rw [List.foldl_cons]
      cases entry with
      | heading name => exact ih (⟨name, []⟩ :: opened) oldest known
      | directive other value =>
          cases opened with
          | nil => exact ih [] _ (head_valuesOf_pushField known)
          | cons current opened =>
              exact ih ({ current with
                fields := pushField other value current.fields } :: opened) oldest known

/-- A value that the first section is given for a key without one stays its first value. -/
theorem first_value_stays {key name : κ} {known : List (κ × List ν)}
    {given : List (Entry κ ν)} (new : key ∉ known.map Prod.fst)
    (read : given.foldl step [] = [⟨name, known⟩]) (first : ν) (more : List (Entry κ ν)) :
    ∃ result later, assemble (given ++ .directive key first :: more) = result :: later ∧
      (valuesOf key result.fields).head? = some first := by
  have holds : (valuesOf key (known ++ [(key, [first])])).head? = some first := by
    have absent : known.lookup key = none := by
      rw [List.lookup_eq_none_iff]
      intro field member
      rw [bne_iff_ne]
      rintro rfl
      exact new (List.mem_map_of_mem member)
    simp [valuesOf, List.lookup_append, absent]
  obtain ⟨later, result, run, kept⟩ :=
    foldl_first [] ⟨name, known ++ [(key, [first])]⟩ more holds
  refine ⟨result, later.reverse, ?_, kept⟩
  rw [assemble, List.foldl_append, read, List.foldl_cons, step, pushField_new new]
  rw [List.nil_append] at run
  rw [run, List.reverse_append]
  rfl

end Reading

/-! ## Counting values -/

section Counting

variable (wanted : κ → ν → Bool)

/-- Whether the entry gives a value that is wanted. -/
def Entry.isWanted : Entry κ ν → Bool
  | .heading _ => false
  | .directive key value => wanted key value

def fieldsWeight (fields : List (κ × List ν)) : Nat :=
  (fields.map fun field => field.2.countP (wanted field.1)).sum

/-- How many of the values are wanted. -/
def weight (sections : List (Section κ ν)) : Nat :=
  (sections.map fun given => fieldsWeight wanted given.fields).sum

theorem fieldsWeight_cons (name : κ) (values : List ν) (fields : List (κ × List ν)) :
    fieldsWeight wanted ((name, values) :: fields) =
      values.countP (wanted name) + fieldsWeight wanted fields :=
  rfl

theorem weight_append (front back : List (Section κ ν)) :
    weight wanted (front ++ back) = weight wanted front + weight wanted back := by
  rw [weight, List.map_append, List.sum_append]
  rfl

/-- Without weight no value is wanted. -/
theorem not_wanted_of_weight_eq_zero {sections : List (Section κ ν)}
    (none : weight wanted sections = 0) {given : Section κ ν} (member : given ∈ sections)
    {field : κ × List ν} (within : field ∈ given.fields) {value : ν} (listed : value ∈ field.2) :
    wanted field.1 value = false := by
  have section_zero : fieldsWeight wanted given.fields = 0 :=
    List.sum_eq_zero_iff_forall_eq_nat.mp none _ (List.mem_map_of_mem member)
  have field_zero : field.2.countP (wanted field.1) = 0 :=
    List.sum_eq_zero_iff_forall_eq_nat.mp section_zero _ (List.mem_map_of_mem within)
  exact Bool.eq_false_iff.mpr (List.countP_eq_zero.mp field_zero value listed)

variable [DecidableEq κ]

theorem fieldsWeight_pushField (key : κ) (value : ν) (fields : List (κ × List ν)) :
    fieldsWeight wanted (pushField key value fields) =
      fieldsWeight wanted fields + if wanted key value then 1 else 0 := by
  induction fields with
  | nil => simp [pushField, fieldsWeight, List.countP_cons]
  | cons field fields ih =>
      obtain ⟨name, values⟩ := field
      rw [pushField]
      by_cases same : name = key
      · subst same
        rw [if_pos rfl, fieldsWeight_cons, fieldsWeight_cons, List.countP_append,
          List.countP_singleton]
        omega
      · rw [if_neg same, fieldsWeight_cons, fieldsWeight_cons, ih]
        omega

theorem weight_foldl {opened : List (Section κ ν)} (entries : List (Entry κ ν))
    (some : opened ≠ []) :
    weight wanted (entries.foldl step opened) =
      weight wanted opened + entries.countP (Entry.isWanted wanted) := by
  induction entries generalizing opened with
  | nil => rfl
  | cons entry entries ih =>
      rw [List.foldl_cons, List.countP_cons]
      cases entry with
      | heading name =>
          rw [step, ih (List.cons_ne_nil _ _)]
          simp [weight, fieldsWeight, Entry.isWanted]
      | directive key value =>
          obtain ⟨current, closed, rfl⟩ := List.exists_cons_of_ne_nil some
          rw [step, ih (List.cons_ne_nil _ _)]
          simp only [weight, List.map_cons, List.sum_cons, fieldsWeight_pushField,
            Entry.isWanted]
          ac_rfl

/-- After a heading no value is lost and none is made up. -/
theorem weight_assemble (name : κ) (entries : List (Entry κ ν)) :
    weight wanted (assemble (.heading name :: entries)) =
      entries.countP (Entry.isWanted wanted) := by
  have reversed (sections : List (Section κ ν)) :
      weight wanted sections.reverse = weight wanted sections := by
    rw [weight, List.map_reverse, List.sum_reverse]
    rfl
  rw [assemble, reversed, List.foldl_cons, step, weight_foldl wanted entries (List.cons_ne_nil _ _)]
  simp [weight, fieldsWeight]

end Counting

end Ini
