import Mathlib.Data.Rat.Defs

/-!
# Firebase snapshots, the casts made on them, and the storage

A snapshot carries a JSON value. The app reads it with forced casts (`as! NSArray`, `as! String`) and forced unwraps,
each of which stops the program when it fails; such a read is a function into `Option`, `none` being the trap. So is
`reference(forURL:)`, which throws on an address that does not belong to the storage of the app.
-/

namespace CareDirect

/-- The values Firebase stores. A gap in an array is delivered as `null`; a key without a value is absent. -/
inductive Json
  | null
  | bool (b : Bool)
  | number (n : ℚ)
  | string (s : String)
  | array (xs : List Json)
  | object (fields : List (String × Json))

namespace Json

/-- `as! NSArray` -/
def asArray : Json → Option (List Json)
  | array xs => some xs
  | _ => none

/-- `as! NSDictionary`, and `as? [String: AnyObject]` -/
def asDictionary : Json → Option (List (String × Json))
  | object fields => some fields
  | _ => none

/-- `as! String` -/
def asString : Json → Option String
  | string s => some s
  | _ => none

/-- `as! Bool`: a number bridges to a `Bool` when it is exactly `0` or `1`. -/
def asBool : Json → Option Bool
  | bool b => some b
  | number n => if n = 0 then some false else if n = 1 then some true else none
  | _ => none

end Json

/-- A dictionary entry read as an optional and cast with `as! String?`: a missing key gives `nil`, a value that is not
a string traps. -/
def optionalString (dictionary : List (String × Json)) (key : String) : Option (Option String) :=
  match dictionary.lookup key with
  | none => some none
  | some value => value.asString.map some

/-- `object?[key]`, for `object` the outcome of `value as? [String: AnyObject]` -/
def field (object : Option (List (String × Json))) (key : String) : Option Json := object.bind (·.lookup key)

/-- `as! String?` -/
def asOptionalString : Option Json → Option (Option String)
  | none => some none
  | some value => value.asString.map some

/-- An object, and the key of the record that it was made from. The app does not keep the key; it says which record an
object shows. -/
structure Recorded (α : Type) where
  key : String
  model : α
  deriving DecidableEq, Repr

/-- What an observer is called with: the key of a node and its value. -/
structure DataSnapshot where
  key : String
  value : Json

namespace DataSnapshot

/-- `children.allObjects`: one snapshot per entry, in the order of the query. -/
def children (snapshot : DataSnapshot) : List DataSnapshot :=
  match snapshot.value with
  | .object fields => fields.map fun f => ⟨f.1, f.2⟩
  | .array xs => ((List.range xs.length).zip xs).filterMap fun
    | (_, .null) => none
    | (i, x) => some ⟨toString i, x⟩
  | _ => []

def childrenCount (snapshot : DataSnapshot) : Nat := snapshot.children.length

/-! ## Text fields -/

/-- The text stored under a key of the record, if there is one. -/
def text (record : DataSnapshot) (key : String) : Option String :=
  (field record.value.asDictionary key).bind Json.asString

/-- What the record stores under these keys are strings. -/
def TextFields (keys : List String) (record : DataSnapshot) : Prop :=
  ∀ key ∈ keys, ∀ value, field record.value.asDictionary key = some value → ∃ s, value = .string s

/-- The record stores a string under each of these keys. -/
def HasTexts (keys : List String) (record : DataSnapshot) : Prop := ∀ key ∈ keys, ∃ s, record.text key = some s

variable {keys : List String} {record : DataSnapshot} {key : String}

theorem HasTexts.textFields (h : HasTexts keys record) : TextFields keys record := by
  intro key hkey value hvalue
  obtain ⟨s, hs⟩ := h key hkey
  rw [text, hvalue, Option.bind_some] at hs
  cases value <;> cases hs
  exact ⟨_, rfl⟩

theorem TextFields.of_read (h : ∀ key ∈ keys, ∃ t, asOptionalString (field record.value.asDictionary key) = some t) :
    TextFields keys record := by
  intro key hkey value hvalue
  obtain ⟨t, ht⟩ := h key hkey
  rw [hvalue] at ht
  cases value <;> cases ht
  exact ⟨_, rfl⟩

/-- A record whose fields under these keys are strings. -/
theorem textFields_object {name : String} {fields : List (String × Json)}
    (h : ∀ f ∈ fields, f.1 ∈ keys → ∃ s, f.2 = .string s) : TextFields keys ⟨name, .object fields⟩ := by
  intro key hkey value hvalue
  have hlookup : fields.lookup key = some value := hvalue
  obtain ⟨before, after, hfields, -⟩ := List.lookup_eq_some_iff.1 hlookup
  exact h (key, value) (by simp [hfields]) hkey

/-- Such a field is read as it is stored. -/
theorem TextFields.read (h : TextFields keys record) (hkey : key ∈ keys) :
    asOptionalString (field record.value.asDictionary key) = some (record.text key) := by
  unfold text
  cases hvalue : field record.value.asDictionary key with
  | none => rfl
  | some value =>
    obtain ⟨s, rfl⟩ := h key hkey value hvalue
    rfl

/-- The fields are texts exactly when every one of them can be read. -/
theorem textFields_iff : TextFields keys record ↔
    ∀ key ∈ keys, (asOptionalString (field record.value.asDictionary key)).isSome := by
  constructor
  · intro h key hkey
    rw [h.read hkey]
    rfl
  · exact fun h => .of_read fun key hkey => Option.isSome_iff_exists.1 (h key hkey)

theorem hasTexts_iff : HasTexts keys record ↔ ∀ key ∈ keys, (record.text key).isSome :=
  forall₂_congr fun _ _ => Option.isSome_iff_exists.symm

instance : Decidable (TextFields keys record) := decidable_of_iff' _ textFields_iff

instance : Decidable (HasTexts keys record) := decidable_of_iff' _ hasTexts_iff

end DataSnapshot

/-! ## The storage -/

/-- `Storage.storage()`, as the addresses that belong to it. -/
structure Storage where
  accepts : String → Bool

namespace Storage

/-- `reference(forURL:)`: the exception that it throws is not caught. -/
def reference (storage : Storage) (url : String) : Option String := if storage.accepts url then some url else none

/-- No address, or one that belongs to the storage: what `if let url` and `reference(forURL:)` let pass. -/
def takes (storage : Storage) (url : Option String) : Bool := url.all storage.accepts

variable {storage : Storage} {url url' : String}

theorem reference_eq_some_iff : storage.reference url = some url' ↔ storage.accepts url = true ∧ url = url' := by
  simp [reference]

theorem reference_eq_none_iff : storage.reference url = none ↔ storage.accepts url = false := by
  simp [reference]

theorem takes_some : storage.takes (some url) = storage.accepts url := rfl

@[simp] theorem takes_none : storage.takes none = true := rfl

theorem takes_eq_false_iff {url : Option String} :
    storage.takes url = false ↔ ∃ picture, url = some picture ∧ storage.accepts picture = false := by
  cases url with
  | none => simp
  | some picture => simp [takes_some]

end Storage

/-- The bucket of the app, with the two forms that its addresses have. -/
def sampleStorage : Storage where
  accepts url :=
    ["gs://caredirect-imd.appspot.com/",
      "https://firebasestorage.googleapis.com/v0/b/caredirect-imd.appspot.com/o/"].any fun location =>
        location.toList.isPrefixOf url.toList

/-- Two pictures in the bucket. -/
def pictureA : String := "https://firebasestorage.googleapis.com/v0/b/caredirect-imd.appspot.com/o/a.png"

def pictureB : String := "https://firebasestorage.googleapis.com/v0/b/caredirect-imd.appspot.com/o/b.png"

example : sampleStorage.accepts pictureA = true ∧ sampleStorage.accepts "https://a" = false := by decide

end CareDirect
