import Proxora.Ecma.Text

/-!
# ECMAScript data values

`Value` covers the values a program builds out of literals and of parsed JSON.
`Value.toText` is `String(v)` and `Value.viaJson` is
`JSON.parse(JSON.stringify(v))`: `undefined` and the numbers JSON cannot write
are where the two differ, and `viaJson_toText` says that nothing else does.

A `Record` is a plain object: its keys are distinct by construction.
-/

namespace Ecma

/-- Numbers, as far as their text is concerned.  A finite number is given by
its numeral, the text that `String` and `JSON.stringify` both write for it. -/
inductive Num : Type
  | finite (numeral : Text)
  | nan
  | infinity (negative : Bool)
deriving DecidableEq

/-- `String(n)`. -/
def Num.toText : Num → Text
  | .finite numeral => numeral
  | .nan => "NaN"
  | .infinity negative => if negative then "-Infinity" else "Infinity"

/-- `undefined`, `null`, booleans, numbers, strings, arrays and plain objects.
An object met as a value only ever goes through `String` and JSON, which do
not tell two of them apart here, so it carries nothing. -/
inductive Value : Type
  | undefined
  | null
  | bool (b : Bool)
  | num (n : Num)
  | str (s : Text)
  | arr (items : List Value)
  | obj

/-- A natural number as a value. -/
def Value.nat (n : Nat) : Value := .num (.finite (toString n))

/-- `value === undefined || value === null`. -/
def Value.isNullish : Value → Bool
  | .undefined | .null => true
  | _ => false

/-- `undefined`, `null` and the empty string. -/
def Value.isBlank : Value → Bool
  | .undefined | .null | .str [] => true
  | _ => false

/-- `a ?? b`. -/
def Value.orElse (a b : Value) : Value := if a.isNullish then b else a

/-- `String(v)` for a value that is no array. -/
def Value.scalarText : Value → Text
  | .undefined => "undefined"
  | .null => "null"
  | .bool b => if b then "true" else "false"
  | .num n => n.toText
  | .str s => s
  | .arr _ => []
  | .obj => "[object Object]"

mutual

/-- `String(v)`. -/
def Value.toText : Value → Text
  | .arr items => join ',' (Value.itemTexts items)
  | v => v.scalarText

/-- The texts that `Array.prototype.join` puts together. -/
def Value.itemTexts : List Value → List Text
  | [] => []
  | v :: vs => (if v.isNullish then [] else v.toText) :: Value.itemTexts vs

end

mutual

/-- `JSON.parse(JSON.stringify(v))`; `none` where `stringify` gives `undefined`. -/
def Value.viaJson : Value → Option Value
  | .undefined => none
  | .null => some .null
  | .bool b => some (.bool b)
  | .num (.finite numeral) => some (.num (.finite numeral))
  | .num _ => some .null
  | .str s => some (.str s)
  | .arr items => some (.arr (Value.itemsViaJson items))
  | .obj => some .obj

/-- In an array the items without JSON become `null`. -/
def Value.itemsViaJson : List Value → List Value
  | [] => []
  | v :: vs => (v.viaJson.getD .null) :: Value.itemsViaJson vs

end

mutual

/-- No number in the value is `NaN` or infinite. -/
def Value.Finite : Value → Prop
  | .num (.finite _) => True
  | .num _ => False
  | .arr items => Value.ItemsFinite items
  | _ => True

def Value.ItemsFinite : List Value → Prop
  | [] => True
  | v :: vs => v.Finite ∧ Value.ItemsFinite vs

end

theorem Value.itemsFinite_iff {items : List Value} :
    Value.ItemsFinite items ↔ ∀ v ∈ items, v.Finite := by
  induction items with
  | nil => simp [Value.ItemsFinite]
  | cons v vs ih => simp [Value.ItemsFinite, ih]

/-- JSON keeps the text of a value, and its being `null` or `undefined`. -/
def Value.KeptByJson (v : Value) : Prop :=
  (v.viaJson = none → v = .undefined) ∧
    ∀ w, v.viaJson = some w → w.toText = v.toText ∧ w.isNullish = v.isNullish

/-- Two values that are `null` or `undefined` alike, and of one text otherwise. -/
def Value.Alike (v w : Value) : Prop :=
  v.isNullish = w.isNullish ∧ (w.isNullish = false → v.toText = w.toText)

theorem Value.Alike.refl (v : Value) : v.Alike v := ⟨rfl, fun _ => rfl⟩

theorem Value.Alike.orElse {a a' b b' : Value} (first : a.Alike a') (second : b.Alike b') :
    (a.orElse b).Alike (a'.orElse b') := by
  unfold Value.orElse
  rw [first.1]
  cases a'.isNullish with
  | true => exact second
  | false => exact first

theorem Value.KeptByJson.item {v : Value} (kept : v.KeptByJson) :
    (v.viaJson.getD .null).Alike v := by
  cases image : v.viaJson with
  | none =>
      rw [kept.1 image]
      exact ⟨rfl, fun absent => by cases absent⟩
  | some w =>
      have same := kept.2 w image
      exact ⟨same.2, fun _ => same.1⟩

mutual

/-- A value without non-finite numbers keeps its text. -/
theorem Value.viaJson_toText (v : Value) (finite : v.Finite) : v.KeptByJson :=
  match v with
  | .undefined => ⟨fun _ => rfl, by simp [Value.viaJson]⟩
  | .null => ⟨by simp [Value.viaJson], by simp [Value.viaJson]⟩
  | .bool _ => ⟨by simp [Value.viaJson], by simp [Value.viaJson]⟩
  | .num (.finite _) => ⟨by simp [Value.viaJson], by simp [Value.viaJson]⟩
  | .str _ => ⟨by simp [Value.viaJson], by simp [Value.viaJson]⟩
  | .obj => ⟨by simp [Value.viaJson], by simp [Value.viaJson]⟩
  | .arr items => by
      have texts := Value.itemsViaJson_itemTexts items (by rwa [Value.Finite] at finite)
      refine ⟨by simp [Value.viaJson], fun w image => ?_⟩
      rw [Value.viaJson, Option.some.injEq] at image
      subst image
      rw [Value.toText, Value.toText, texts]
      exact ⟨rfl, rfl⟩

theorem Value.itemsViaJson_itemTexts (items : List Value) (finite : Value.ItemsFinite items) :
    Value.itemTexts (Value.itemsViaJson items) = Value.itemTexts items :=
  match items with
  | [] => rfl
  | v :: vs => by
      rw [Value.ItemsFinite] at finite
      obtain ⟨nullish, text⟩ := (Value.viaJson_toText v finite.1).item
      have tail := Value.itemsViaJson_itemTexts vs finite.2
      rw [Value.itemsViaJson, Value.itemTexts, Value.itemTexts, tail, nullish]
      cases absent : v.isNullish with
      | true => rfl
      | false => rw [text absent]

end

/-! ## Plain objects -/

/-- A plain object, its properties in enumeration order. -/
structure Record (α : Type) where
  entries : List (Text × α)
  nodup : (entries.map Prod.fst).Nodup

variable {α β : Type}

/-- `{}`. -/
def Record.empty : Record α := ⟨[], List.nodup_nil⟩

/-- The property of a name, where there is one. -/
def Record.get? (record : Record α) (key : Text) : Option α := record.entries.lookup key

/-- A property written: in place where the key is known, at the end otherwise. -/
def setEntry : List (Text × α) → Text → α → List (Text × α)
  | [], key, value => [(key, value)]
  | (k, v) :: rest, key, value =>
      if k = key then (key, value) :: rest else (k, v) :: setEntry rest key value

theorem setEntry_keys (entries : List (Text × α)) (key : Text) (value : α) :
    (setEntry entries key value).map Prod.fst =
      if key ∈ entries.map Prod.fst then entries.map Prod.fst else entries.map Prod.fst ++ [key] := by
  induction entries with
  | nil => rfl
  | cons entry rest ih =>
      obtain ⟨k, v⟩ := entry
      by_cases same : k = key
      · simp [setEntry, same]
      · rw [setEntry, if_neg same, List.map_cons, ih]
        by_cases known : key ∈ rest.map Prod.fst
        · rw [if_pos known, if_pos (by simp [known])]
          rfl
        · rw [if_neg known, if_neg (by simp [Ne.symm same, known])]
          rfl

/-- `record[key] = value`. -/
def Record.set (record : Record α) (key : Text) (value : α) : Record α where
  entries := setEntry record.entries key value
  nodup := by
    rw [setEntry_keys]
    split_ifs with known
    · exact record.nodup
    · refine List.nodup_append.mpr ⟨record.nodup, by simp, ?_⟩
      rintro a member b here rfl
      exact known (List.mem_singleton.mp here ▸ member)

theorem lookup_eq_none_of_notMem {entries : List (Text × α)} {key : Text}
    (absent : key ∉ entries.map Prod.fst) : entries.lookup key = none := by
  rw [List.lookup_eq_none_iff]
  intro entry member
  rw [bne_iff_ne]
  intro same
  exact absent (List.mem_map.mpr ⟨entry, member, same.symm⟩)

theorem lookup_setEntry (entries : List (Text × α)) (key : Text) (value : α) (k : Text) :
    (setEntry entries key value).lookup k = if k = key then some value else entries.lookup k := by
  induction entries with
  | nil =>
      rw [setEntry, List.lookup_cons]
      by_cases same : k = key
      · simp [same]
      · simp [same, beq_eq_false_iff_ne.mpr same]
  | cons entry rest ih =>
      obtain ⟨name, v⟩ := entry
      by_cases here : name = key
      · subst here
        rw [setEntry, if_pos rfl, List.lookup_cons, List.lookup_cons]
        by_cases same : k = name
        · simp [same]
        · simp [same, beq_eq_false_iff_ne.mpr same]
      · rw [setEntry, if_neg here, List.lookup_cons, List.lookup_cons, ih]
        by_cases same : k = name
        · simp [same, here]
        · simp [beq_eq_false_iff_ne.mpr same]

theorem lookup_filter_entries {entries : List (Text × α)} (nodup : (entries.map Prod.fst).Nodup)
    (keep : α → Bool) (key : Text) :
    (entries.filter fun entry => keep entry.2).lookup key = (entries.lookup key).filter keep := by
  induction entries with
  | nil => rfl
  | cons entry rest ih =>
      obtain ⟨name, v⟩ := entry
      rw [List.map_cons, List.nodup_cons] at nodup
      have tail := ih nodup.2
      by_cases here : key = name
      · subst here
        have absent := lookup_eq_none_of_notMem nodup.1
        rw [absent] at tail
        rw [List.lookup_cons_self]
        cases kept : keep v with
        | true => simp [Option.filter, kept, List.lookup_cons_self]
        | false => simpa [Option.filter, kept] using tail
      · have other : (key == name) = false := beq_eq_false_iff_ne.mpr here
        rw [List.lookup_cons, other]
        cases kept : keep v with
        | true => simp [kept, List.lookup_cons, other, tail]
        | false => simp [kept, tail]

/-- `{ ...record, ...more }`. -/
def Record.assign (record : Record α) (more : List (Text × α)) : Record α :=
  more.foldl (fun built entry => built.set entry.1 entry.2) record

/-- An object literal. -/
def Record.ofList (entries : List (Text × α)) : Record α := Record.empty.assign entries

/-- The record with every value replaced. -/
def Record.map (f : α → β) (record : Record α) : Record β where
  entries := record.entries.map fun entry => (entry.1, f entry.2)
  nodup := by
    have keys : (record.entries.map fun entry => (entry.1, f entry.2)).map Prod.fst =
        record.entries.map Prod.fst := by
      rw [List.map_map]
      rfl
    rw [keys]
    exact record.nodup

/-- `record[key]`. -/
def Record.get (record : Record Value) (key : Text) : Value := (record.get? key).getD .undefined

theorem Record.get_set (record : Record Value) (key : Text) (value : Value) (k : Text) :
    (record.set key value).get k = if k = key then value else record.get k := by
  unfold Record.get Record.get? Record.set
  rw [lookup_setEntry]
  split_ifs <;> rfl

theorem Record.get_assign_of_notMem {record : Record Value} {more : List (Text × Value)}
    {key : Text} (other : key ∉ more.map Prod.fst) : (record.assign more).get key = record.get key := by
  induction more generalizing record with
  | nil => rfl
  | cons entry rest ih =>
      rw [List.map_cons, List.mem_cons, not_or] at other
      have step : record.assign (entry :: rest) = (record.set entry.1 entry.2).assign rest := rfl
      rw [step, ih other.2, Record.get_set, if_neg other.1]

theorem Record.get_assign_cons {record : Record Value} {key : Text} {value : Value}
    {more : List (Text × Value)} (last : key ∉ more.map Prod.fst) :
    (record.assign ((key, value) :: more)).get key = value := by
  have step : record.assign ((key, value) :: more) = (record.set key value).assign more := rfl
  rw [step, Record.get_assign_of_notMem last, Record.get_set, if_pos rfl]

/-- The properties of the values that pass a test. -/
def Record.filter (keep : α → Bool) (record : Record α) : Record α where
  entries := record.entries.filter fun entry => keep entry.2
  nodup := record.nodup.sublist (List.filter_sublist.map Prod.fst)

theorem Record.get_filter (keep : Value → Bool) (record : Record Value) (key : Text) :
    (record.filter keep).get key =
      if keep (record.get key) then record.get key else .undefined := by
  unfold Record.get Record.get? Record.filter
  rw [lookup_filter_entries record.nodup]
  cases record.entries.lookup key with
  | none =>
      rw [Option.filter_none, Option.getD_none]
      split_ifs <;> rfl
  | some v => by_cases kept : keep v = true <;> simp [Option.filter, kept]

/-- The properties that JSON writes. -/
def jsonEntries : List (Text × Value) → List (Text × Value)
  | [] => []
  | (key, v) :: rest =>
      match v.viaJson with
      | some w => (key, w) :: jsonEntries rest
      | none => jsonEntries rest

theorem jsonEntries_keys (entries : List (Text × Value)) :
    ((jsonEntries entries).map Prod.fst).Sublist (entries.map Prod.fst) := by
  induction entries with
  | nil => exact List.Sublist.refl _
  | cons entry rest ih =>
      unfold jsonEntries
      split
      · exact ih.cons_cons entry.1
      · exact ih.cons entry.1

theorem lookup_jsonEntries {entries : List (Text × Value)} (nodup : (entries.map Prod.fst).Nodup)
    (key : Text) :
    (jsonEntries entries).lookup key = (entries.lookup key).bind Value.viaJson := by
  induction entries with
  | nil => rfl
  | cons entry rest ih =>
      obtain ⟨name, v⟩ := entry
      rw [List.map_cons, List.nodup_cons] at nodup
      have tail := ih nodup.2
      by_cases here : key = name
      · subst here
        have absent := lookup_eq_none_of_notMem nodup.1
        rw [absent, Option.bind_none] at tail
        rw [List.lookup_cons_self, Option.bind_some, jsonEntries]
        split
        · rename_i w image
          rw [List.lookup_cons_self, image]
        · rename_i image
          rw [tail, image]
      · have other : (key == name) = false := beq_eq_false_iff_ne.mpr here
        rw [List.lookup_cons, other, jsonEntries]
        split
        · rw [List.lookup_cons, other]
          exact tail
        · exact tail

/-- `JSON.parse(JSON.stringify(record))`. -/
def Record.viaJson (record : Record Value) : Record Value where
  entries := jsonEntries record.entries
  nodup := record.nodup.sublist (jsonEntries_keys record.entries)

/-- No property of the record is a non-finite number. -/
def Record.Finite (record : Record Value) : Prop :=
  Value.ItemsFinite (record.entries.map Prod.snd)

theorem Record.Finite.get {record : Record Value} (finite : record.Finite) (key : Text) :
    (record.get key).Finite := by
  unfold Record.get Record.get?
  cases found : record.entries.lookup key with
  | none => simp [Value.Finite]
  | some v =>
      obtain ⟨front, back, cut, _⟩ := List.lookup_eq_some_iff.mp found
      refine Value.itemsFinite_iff.mp finite v (List.mem_map.mpr ⟨(key, v), ?_, rfl⟩)
      rw [cut]
      exact List.mem_append_right front List.mem_cons_self

/-- A property read after JSON. -/
theorem Record.get_viaJson {record : Record Value} (finite : record.Finite) (key : Text) :
    (record.viaJson.get key).Alike (record.get key) := by
  have kept := Value.viaJson_toText (record.get key) (finite.get key)
  unfold Record.get Record.get? at kept ⊢
  rw [Record.viaJson, lookup_jsonEntries record.nodup]
  cases found : record.entries.lookup key with
  | none => exact Value.Alike.refl _
  | some v =>
      rw [found, Option.getD_some] at kept
      rw [Option.bind_some, Option.getD_some]
      cases image : v.viaJson with
      | none =>
          rw [kept.1 image]
          exact Value.Alike.refl _
      | some w =>
          have same := kept.2 w image
          exact ⟨same.2, fun _ => same.1⟩

end Ecma
