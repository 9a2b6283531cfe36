import Proxora.Ecma.Doubles

/-!
# Values of JSON

A value of JSON over the types of its strings and numbers, as a text writes it or as `JSON.parse`
makes it. `Json.number` and `Json.text` are `Number(v)` and `String(v)` of a parsed value: an object
with a property `toString` has no primitive value, and both throw.
-/

namespace Ecma

/-- The members of an object in their order; of two with one name the later one counts. -/
inductive Json (S N : Type) : Type
  | null
  | bool (b : Bool)
  | num (n : N)
  | str (s : S)
  | arr (items : List (Json S N))
  | obj (members : List (S × Json S N))

namespace Json

variable {S N : Type}

/-- The property of a name; only objects have one of a name that is no index. -/
def member [DecidableEq S] (name : S) : Json S N → Option (Json S N)
  | obj members => members.reverse.lookup name
  | _ => none

/-- `typeof v === "object"` for a value that is not null. -/
def isObject : Json S N → Bool
  | arr _ | obj _ => true
  | _ => false

/-- An object literal after `JSON.stringify`, which leaves out what is undefined. -/
def ofProperties (properties : List (S × Option (Json S N))) : Json S N :=
  obj (properties.filterMap fun property => property.2.map (property.1, ·))

/-- Whether a value that may be undefined counts as true. -/
def truthy : Option (Json Text Double) → Bool
  | none | some null => false
  | some (bool b) => b
  | some (num n) => n ≠ .finite 0 && n ≠ .nan
  | some (str s) => s ≠ []
  | some (arr _) | some (obj _) => true

/-- `v === text`, for `v` that may be undefined. -/
def isText [DecidableEq S] (value : Option (Json S N)) (text : S) : Bool :=
  match value with
  | some (str s) => s = text
  | _ => false

mutual

/-- `String(v)`; `none` is a `TypeError`. -/
def text : Json Text Double → Option Text
  | null => some "null"
  | bool b => some (if b then ("true" : Text) else ("false" : Text))
  | num n => some n.text
  | str s => some s
  | arr items => (itemTexts items).map (join ',')
  | obj members =>
      if members.any fun member => member.1 = ("toString" : Text) then none
      else some "[object Object]"

/-- The texts that `join` puts together. -/
def itemTexts : List (Json Text Double) → Option (List Text)
  | [] => some []
  | null :: rest => (itemTexts rest).map ([] :: ·)
  | item :: rest =>
      match item.text, itemTexts rest with
      | some text, some texts => some (text :: texts)
      | _, _ => none

end

/-- `Number(v)`, for `v` that may be undefined; `none` is a `TypeError`. -/
def number : Option (Json Text Double) → Option Double
  | none => some .nan
  | some null => some (.finite 0)
  | some (bool b) => some (.finite (if b then 1 else 0))
  | some (num n) => some n
  | some (str s) => some (numberOfText s)
  | some value => value.text.map numberOfText

theorem member_ofProperties_cons [DecidableEq S] (key : S) (value : Option (Json S N))
    (rest : List (S × Option (Json S N))) (name : S) :
    (ofProperties ((key, value) :: rest)).member name =
      ((ofProperties rest).member name).or (if name = key then value else none) := by
  cases value with
  | none => simp [ofProperties, member]
  | some value =>
      have single : [(key, value)].lookup name = if name = key then some value else none := by
        by_cases same : name = key
        · rw [same, List.lookup_cons_self, if_pos rfl]
        · rw [List.lookup_cons, beq_false_of_ne same, if_neg same]
          rfl
      simp only [ofProperties, member, List.filterMap_cons, Option.map_some, List.reverse_cons,
        List.lookup_append, single]

theorem member_ofProperties_of_notMem [DecidableEq S] {properties : List (S × Option (Json S N))}
    {name : S} (absent : name ∉ properties.map Prod.fst) :
    (ofProperties properties).member name = none := by
  induction properties with
  | nil => rfl
  | cons property rest ih =>
      rw [List.map_cons, List.mem_cons, not_or] at absent
      rw [member_ofProperties_cons, ih absent.2, if_neg absent.1, Option.or_none]

/-- A property read back. -/
theorem member_ofProperties [DecidableEq S] {properties : List (S × Option (Json S N))}
    (distinct : (properties.map Prod.fst).Nodup) {name : S} {value : Option (Json S N)}
    (listed : (name, value) ∈ properties) : (ofProperties properties).member name = value := by
  induction properties with
  | nil => cases listed
  | cons property rest ih =>
      obtain ⟨absent, others⟩ := List.nodup_cons.mp distinct
      rw [member_ofProperties_cons]
      rcases List.mem_cons.mp listed with rfl | later
      · rw [member_ofProperties_of_notMem absent, if_pos rfl, Option.none_or]
      · have apart : name ≠ property.1 := fun same => absent (same ▸ List.mem_map_of_mem later)
        rw [ih others later, if_neg apart, Option.or_none]

end Json

end Ecma
