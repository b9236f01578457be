import Mathlib.Tactic.ByContra
import SyntaxGraph.Source.Codec

/-!
# Source trees and their JSON

What is written for a tree is read as the tree again, whichever of its optional parts are
there: a symbol has null for its arguments, a call without arguments an empty list, and a
note only what is noted. Reading is more liberal than writing, so the converse is about
trees: a value that is read, in whatever form, has a tree that is read back from what is
written for it.

The numbers of a JSON value are integers of 64 bits, with or without a sign, and finite
floats. `Json.isBounded` says so of a value and `Source.isFinite` of the floats of a tree.
Writing and reading lead from one to the other, because an integer of 64 bits that stands
for a float is rounded to a finite one.
-/

namespace SyntaxGraph

/-! ## Integers as floats -/

theorem roundDiv_le (num den : Nat) : roundDiv num den ≤ num / den + 1 := by
  unfold roundDiv
  dsimp only
  split <;> omega

namespace Binary64

/-- A natural number is scaled until at most fifty-four binary places stand before the point. -/
theorem roundDiv_scaled_le {n : Nat} {power : Int} (least : (n.log2 : Int) - 53 ≤ power) :
    let scaled := if power ≥ 0 then (n, 1 * Nat.pow 2 power.toNat) else (n * Nat.pow 2 (-power).toNat, 1)
    roundDiv scaled.1 scaled.2 ≤ Nat.pow 2 54 := by
  have above : n < 2 ^ (n.log2 + 1) := Nat.lt_log2_self
  refine Nat.le_trans (roundDiv_le _ _) (Nat.succ_le_of_lt ?_)
  split
  · have fits : (2 : Nat) ^ (n.log2 + 1) ≤ 2 ^ (power.toNat + 54) :=
      Nat.pow_le_pow_right (by decide) (by omega)
    rw [Nat.pow_add _ power.toNat] at fits
    refine Nat.div_lt_of_lt_mul ?_
    rw [Nat.one_mul]
    exact Nat.lt_of_lt_of_le above fits
  · have fits : (2 : Nat) ^ (n.log2 + 1 + (-power).toNat) ≤ 2 ^ 54 :=
      Nat.pow_le_pow_right (by decide) (by omega)
    rw [Nat.pow_add] at fits
    rw [Nat.div_one]
    exact Nat.lt_of_lt_of_le (Nat.mul_lt_mul_of_pos_right above (Nat.pow_pos (by decide))) fits

/-- A natural number below 2^64 is nearest to a finite number. -/
theorem nearestBits_lt_infiniteBits {n : Nat} (small : n < UInt64.size) :
    nearestBits n 1 < infiniteBits := by
  unfold nearestBits
  split
  case isTrue => decide
  case isFalse positive =>
    have places : n.log2 < 64 := (Nat.log2_lt positive).mpr small
    have one : Nat.log2 1 = 0 := by decide
    dsimp only
    generalize chosen : max _ (-1074 : Int) = power
    have bounds : (n.log2 : Int) - 53 ≤ power ∧ power ≤ 11 := by
      rw [← chosen, one]
      split <;> omega
    have exponent : (power + 1074).toNat ≤ 1085 := by omega
    have size : 1085 * Nat.pow 2 52 + Nat.pow 2 54 < infiniteBits := by decide
    exact Nat.lt_of_le_of_lt (Nat.min_le_right _ _) (Nat.lt_of_le_of_lt
      (Nat.add_le_add (Nat.mul_le_mul_right _ exponent) (roundDiv_scaled_le bounds.1)) size)

theorem isFinite_ofFraction {negative : Bool} {num den : Nat}
    (small : nearestBits num den < infiniteBits) :
    (ofFraction negative num den).isFinite = true := by
  have below : nearestBits num den < Nat.pow 2 63 := Nat.lt_trans small (by decide)
  have magnitude : (ofFraction negative num den).magnitudeBits = nearestBits num den := by
    have sign : (if negative then Nat.pow 2 63 else 0) ≤ Nat.pow 2 63 := by cases negative <;> decide
    unfold magnitudeBits ofFraction
    rw [UInt64.toNat_ofNat', Nat.mod_eq_of_lt (Nat.add_lt_add_of_lt_of_le below sign)]
    cases negative
    · exact Nat.mod_eq_of_lt below
    · rw [if_pos rfl, Nat.add_mod_right, Nat.mod_eq_of_lt below]
  unfold isFinite exponentField
  rw [magnitude, decide_eq_true_iff]
  exact Nat.div_lt_of_lt_mul (Nat.lt_of_lt_of_eq small (Nat.mul_comm _ _))

/-- The float of an integer of 64 bits, with or without a sign, is finite. -/
theorem isFinite_ofInt {i : Int} (least : Int64.minValue.toInt ≤ i) (small : i < UInt64.size) :
    (ofInt i).isFinite = true := by
  have lowest : Int64.minValue.toInt = -9223372036854775808 := by decide
  have size : UInt64.size = 18446744073709551616 := rfl
  exact isFinite_ofFraction (nearestBits_lt_infiniteBits (by omega))

end Binary64

/-! ## Numbers and fields -/

namespace Json

theorem int64?_toInt (value : Int64) : (Json.integer value.toInt).int64? = some value := by
  have inside : (-Int.pow 2 63 ≤ value.toInt && value.toInt < Int.pow 2 63) = true := by
    rw [Bool.and_eq_true, decide_eq_true_iff, decide_eq_true_iff]
    exact ⟨value.le_toInt, value.toInt_lt⟩
  simp only [int64?, integerIn?, inside, if_true, Option.map_some, Int64.ofInt_toInt]

theorem uint32?_toNat (n : UInt32) : (Json.integer n.toNat).uint32? = some n := by
  have inside : (0 ≤ (n.toNat : Int) && (n.toNat : Int) < UInt32.size) = true := by
    rw [Bool.and_eq_true, decide_eq_true_iff, decide_eq_true_iff]
    exact ⟨Int.natCast_nonneg _, Int.ofNat_lt.mpr n.toNat_lt_size⟩
  simp only [uint32?, integerIn?, inside, if_true, Option.map_some, Int.toNat_natCast, UInt32.ofNat_toNat]

theorem nullable_of_ne_null {α : Type} {j : Json} (decode : Json → Option α) (other : j ≠ .null) :
    j.nullable decode = (decode j).map some := by
  cases j with
  | null => exact absurd rfl other
  | _ => rfl

/-- A line and a column that are written only where they are known are read as what they were. -/
theorem Record.optionalFields {α : Type} {decode : Json → Option α} {encode : α → Json}
    (inverse : ∀ value, (encode value).nullable decode = some (some value)) (line column : Option α) :
    let record : Record Json := .named ((line.map fun value => ("line", encode value)).toList ++
      (column.map fun value => ("column", encode value)).toList)
    (record.field "line").withDefault none (Json.nullable decode) = some line ∧
      (record.field "column").withDefault none (Json.nullable decode) = some column := by
  cases line <;> cases column <;> simp [Record.field, Member.find, Member.withDefault, inverse]

mutual

/-- Whether all integers have 64 bits, with or without a sign, and all floats are finite. -/
def isBounded : Json → Bool
  | .integer value => Int64.minValue.toInt ≤ value && value < UInt64.size
  | .float value => value.isFinite
  | .array items => areBounded items
  | .object members => membersAreBounded members
  | .null | .bool _ | .text _ => true

def areBounded : List Json → Bool
  | [] => true
  | item :: rest => item.isBounded && areBounded rest

def membersAreBounded : List (String × Json) → Bool
  | [] => true
  | (_, value) :: rest => value.isBounded && membersAreBounded rest

end

section Simp

variable (x : Binary64) (s : String) (items : List Json) (members : List (String × Json))

@[simp] theorem isBounded_null : Json.null.isBounded = true := rfl
@[simp] theorem isBounded_float : (Json.float x).isBounded = x.isFinite := rfl
@[simp] theorem isBounded_text : (Json.text s).isBounded = true := rfl
@[simp] theorem isBounded_array : (Json.array items).isBounded = areBounded items := rfl
@[simp] theorem isBounded_object : (Json.object members).isBounded = membersAreBounded members := rfl

attribute [simp] areBounded membersAreBounded

end Simp

@[simp] theorem isBounded_int64 (value : Int64) : (Json.integer value.toInt).isBounded = true := by
  have least : Int64.minValue.toInt ≤ value.toInt := Int64.le_iff_toInt_le.mp value.minValue_le
  have small : value.toInt < UInt64.size := Int.lt_trans value.toInt_lt (by decide)
  simp only [isBounded, least, small, decide_true, Bool.and_self]

@[simp] theorem isBounded_uint32 (value : UInt32) : (Json.integer value.toNat).isBounded = true := by
  have least : Int64.minValue.toInt ≤ value.toNat := Int.le_trans (by decide) (Int.natCast_nonneg _)
  have small : (value.toNat : Int) < UInt64.size :=
    Int.ofNat_lt.mpr (Nat.lt_trans value.toNat_lt_size (by decide))
  simp only [isBounded, least, small, decide_true, Bool.and_self]

theorem isFinite_of_float? {j : Json} {x : Binary64} (bounded : j.isBounded = true)
    (read : j.float? = some x) : x.isFinite = true := by
  cases j with
  | integer value =>
    simp only [isBounded, Bool.and_eq_true, decide_eq_true_iff] at bounded
    cases read
    exact Binary64.isFinite_ofInt bounded.1 bounded.2
  | float value =>
    cases read
    exact bounded
  | _ => cases read

section Fields

variable {α β : Type} {decode : α → Option β} {result : β}

/-- The values of a record, under the names of their fields. -/
def Record.members : Record α → List (String × α)
  | .named members | .listed members => members

theorem Member.find_eq_once {name : String} {members : List (String × α)} {value : α}
    (found : Member.find name members = .once value) : (name, value) ∈ members := by
  unfold Member.find at found
  split at found
  case h_2 entry single =>
    have here : entry ∈ members.filter (·.1 == name) := single ▸ List.mem_singleton_self entry
    obtain ⟨inside, same⟩ := List.mem_filter.mp here
    cases found
    rw [← eq_of_beq same]
    exact inside
  all_goals cases found

theorem Record.field_eq_once {name : String} {record : Record α} {value : α}
    (found : record.field name = .once value) : (name, value) ∈ record.members := by
  cases record with
  | named members => exact Member.find_eq_once found
  | listed members =>
    cases looked : Member.find name members with
    | once other =>
      simp only [Record.field, looked, Member.once.injEq] at found
      exact Member.find_eq_once (found ▸ looked)
    | _ => simp [Record.field, looked] at found

/-- A field that must be there is decoded from a value of the record. -/
theorem Record.required_eq_some {name : String} {record : Record α}
    (read : (record.field name).required decode = some result) :
    ∃ value, (name, value) ∈ record.members ∧ decode value = some result := by
  cases found : record.field name with
  | once value => exact ⟨value, Record.field_eq_once found, by rwa [found] at read⟩
  | _ =>
    rw [found] at read
    cases read

/-- A field with a default has it, or is decoded from a value of the record. -/
theorem Record.withDefault_eq_some {name : String} {record : Record α} {fallback : β}
    (read : (record.field name).withDefault fallback decode = some result) :
    result = fallback ∨ ∃ value, (name, value) ∈ record.members ∧ decode value = some result := by
  cases found : record.field name with
  | once value => exact .inr ⟨value, Record.field_eq_once found, by rwa [found] at read⟩
  | repeated =>
    rw [found] at read
    cases read
  | _ =>
    rw [found] at read
    cases read
    exact .inl rfl

end Fields

end Json

theorem Meta.ofJson?_toJson (m : Meta) : Meta.ofJson? m.toJson = some m := by
  have inverse (n : UInt32) : (Json.integer n.toNat).nullable Json.uint32? = some (some n) := by
    rw [Json.nullable_of_ne_null _ (by simp), Json.uint32?_toNat, Option.map_some]
  obtain ⟨line, column⟩ := Json.Record.optionalFields inverse m.line m.column
  simp only [Meta.ofJson?, Meta.toJson, Json.record?, Option.bind_eq_bind, Option.bind_some, line, column]

/-! ## Reading what is written -/

namespace Source

theorem Kind.ofName?_name (k : Kind) : Kind.ofName? k.name = some k := by cases k <;> rfl

@[simp] theorem reading_value (j : Json) : (reading j).value = j := by
  cases j <;> simp [reading]

section Written

/-! Looking a field up in the object that is written for a tree is evaluation. -/
attribute [local simp] memberReadings ofMembers? ofRecord? Reading.formArgs? Json.Record.field
  Json.Member.find Json.Member.required Json.Member.withDefault Json.int64?_toInt Json.float? Json.text?
  Meta.ofJson?_toJson

mutual

/-- The object that is written for a tree is read as the tree, however kinds are read. -/
theorem ofMembers?_toJson (kindOf : Json → Option Kind)
    (named : ∀ k : Kind, kindOf (.text k.name) = some k) :
    ∀ s : Source, ∃ members,
      s.toJson = .object members ∧ ofMembers? kindOf (memberReadings members) = some s
  | .integer _ => ⟨_, rfl, by simp [named]⟩
  | .float _ => ⟨_, rfl, by simp [named]⟩
  | .text _ => ⟨_, rfl, by simp [named]⟩
  | .atom _ => ⟨_, rfl, by simp [named]⟩
  | .list items => ⟨_, rfl, by simp [named, trees_allToJson items]⟩
  | .tuple items => ⟨_, rfl, by simp [named, trees_allToJson items]⟩
  | .symbol _ _ => ⟨_, rfl, by simp [named]⟩
  | .form _ _ args => ⟨_, rfl, by simp [named, trees_allToJson args]⟩
  | .call target _ args => ⟨_, rfl, by simp [named, tree_toJson target, trees_allToJson args]⟩

/-- What is written for a tree inside another is read as the tree. -/
theorem tree_toJson (s : Source) : (reading s.toJson).tree = some s := by
  obtain ⟨members, written, read⟩ := ofMembers?_toJson Kind.ofInnerJson? Kind.ofName?_name s
  rw [written]
  exact read

theorem trees_allToJson : ∀ items : List Source,
    (reading (.array (allToJson items))).trees = some items
  | [] => rfl
  | item :: rest => by
    have others := trees_allToJson rest
    simp only [reading] at others
    simp only [reading, allToJson, itemReadings, List.mapM_cons, tree_toJson item, others]
    rfl

end

end Written

/-! ## Finite floats -/

mutual

/-- Whether all floats of a tree are finite. -/
def isFinite : Source → Bool
  | .float value => value.isFinite
  | .list items | .tuple items => areFinite items
  | .form _ _ args => areFinite args
  | .call target _ args => target.isFinite && areFinite args
  | .integer _ | .text _ | .atom _ | .symbol _ _ => true

def areFinite : List Source → Bool
  | [] => true
  | item :: rest => item.isFinite && areFinite rest

end

@[simp] theorem isBounded_meta (m : Meta) : m.toJson.isBounded = true := by
  obtain ⟨line, column⟩ := m
  cases line <;> cases column <;> simp [Meta.toJson]

@[simp] theorem isBounded_record (kind : Kind) (fields : List (String × Json)) :
    (record kind fields).isBounded = Json.membersAreBounded fields := by
  simp [record]

mutual

/-- What is written for a tree with finite floats has numbers that a JSON text can hold. -/
theorem isBounded_toJson : ∀ s : Source, s.isFinite = true → s.toJson.isBounded = true
  | .integer _, _ | .text _, _ | .atom _, _ | .symbol _ _, _ => by simp [toJson]
  | .float _, finite => by simpa [toJson, isFinite] using finite
  | .list items, finite | .tuple items, finite => by simp [toJson, areBounded_allToJson items finite]
  | .form _ _ args, finite => by simp [toJson, areBounded_allToJson args finite]
  | .call target _ args, finite => by
    have both := Bool.and_eq_true_iff.mp finite
    simp [toJson, isBounded_toJson target both.1, areBounded_allToJson args both.2]

theorem areBounded_allToJson : ∀ items : List Source,
    areFinite items = true → Json.areBounded (allToJson items) = true
  | [], _ => rfl
  | item :: rest, finite => by
    have both := Bool.and_eq_true_iff.mp finite
    simp [allToJson, isBounded_toJson item both.1, areBounded_allToJson rest both.2]

end

/-- A reading of a bounded value: the trees it stands for have finite floats. -/
structure Reading.IsFinite (r : Reading) : Prop where
  value : r.value.isBounded = true
  tree : ∀ s, r.tree = some s → s.isFinite = true
  trees : ∀ items, r.trees = some items → areFinite items = true

theorem Reading.IsFinite.formArgs {r : Reading} (finite : r.IsFinite) {args : List Source}
    (read : r.formArgs? = some (some args)) : areFinite args = true := by
  unfold Reading.formArgs? at read
  split at read
  · cases read
  · obtain ⟨items, read, same⟩ := Option.map_eq_some_iff.mp read
    cases same
    exact finite.trees _ read

/-- A tree that is put together from finite fields is finite. -/
theorem isFinite_of_ofRecord? {kind : Kind} {record : Json.Record Reading} {s : Source}
    (fields : ∀ entry ∈ record.members, entry.2.IsFinite) (read : ofRecord? kind record = some s) :
    s.isFinite = true := by
  cases kind with
  | integer | text | atom =>
    obtain ⟨_, _, rfl⟩ := Option.map_eq_some_iff.mp read
    rfl
  | float =>
    obtain ⟨_, field, rfl⟩ := Option.map_eq_some_iff.mp read
    obtain ⟨_, inside, field⟩ := Json.Record.required_eq_some field
    exact Json.isFinite_of_float? (fields _ inside).value field
  | list | tuple =>
    obtain ⟨_, field, rfl⟩ := Option.map_eq_some_iff.mp read
    obtain ⟨_, inside, field⟩ := Json.Record.required_eq_some field
    exact (fields _ inside).trees _ field
  | form =>
    simp only [ofRecord?, Option.bind_eq_bind, Option.bind_eq_some_iff] at read
    obtain ⟨_, _, _, _, args, readArgs, read⟩ := read
    cases args with
    | none =>
      cases read
      rfl
    | some args =>
      cases read
      obtain same | ⟨_, inside, readArgs⟩ := Json.Record.withDefault_eq_some readArgs
      · cases same
      · exact (fields _ inside).formArgs readArgs
  | call =>
    simp only [ofRecord?, Option.bind_eq_bind, Option.bind_eq_some_iff] at read
    obtain ⟨target, readTarget, _, _, args, readArgs, read⟩ := read
    cases read
    obtain ⟨_, insideTarget, readTarget⟩ := Json.Record.required_eq_some readTarget
    refine Bool.and_eq_true_iff.mpr ⟨(fields _ insideTarget).tree _ readTarget, ?_⟩
    obtain rfl | ⟨_, inside, readArgs⟩ := Json.Record.withDefault_eq_some readArgs
    · rfl
    · exact (fields _ inside).trees _ readArgs

theorem areFinite_of_mapM {rs : List Reading} {items : List Source} (finite : ∀ r ∈ rs, r.IsFinite)
    (read : rs.mapM (·.tree) = some items) : areFinite items = true := by
  induction rs generalizing items with
  | nil =>
    cases read
    rfl
  | cons r rest ih =>
    obtain ⟨first, others⟩ := List.forall_mem_cons.mp finite
    simp only [List.mapM_cons, Option.bind_eq_bind, Option.bind_eq_some_iff] at read
    obtain ⟨item, readFirst, more, readRest, read⟩ := read
    cases read
    exact Bool.and_eq_true_iff.mpr ⟨first.tree _ readFirst, ih others readRest⟩

theorem isFinite_of_ofMembers? {kindOf : Json → Option Kind} {members : List (String × Reading)}
    {s : Source} (finite : ∀ entry ∈ members, entry.2.IsFinite)
    (read : ofMembers? kindOf members = some s) : s.isFinite = true := by
  obtain ⟨_, _, read⟩ := Option.bind_eq_some_iff.mp read
  have fields : ∀ entry ∈ (Json.Record.named members).members, entry.2.IsFinite := finite
  exact isFinite_of_ofRecord? fields read

theorem isFinite_of_ofRow? {kindOf : Json → Option Kind} {rs : List Reading} {s : Source}
    (finite : ∀ r ∈ rs, r.IsFinite) (read : ofRow? kindOf rs = some s) : s.isFinite = true := by
  cases rs with
  | nil => cases read
  | cons first rest =>
    simp only [ofRow?, Json.Record.ofRow?, Option.bind_eq_bind, Option.bind_eq_some_iff] at read
    obtain ⟨kind, _, record, row, read⟩ := read
    split at row
    · cases row
      refine isFinite_of_ofRecord? (fun entry inside => ?_) read
      exact finite _ (List.mem_cons_of_mem _ (List.of_mem_zip inside).2)
    · cases row

mutual

theorem isFinite_reading : ∀ j : Json, j.isBounded = true → (reading j).IsFinite
  | .object members, bounded =>
    ⟨bounded, fun _ => isFinite_of_ofMembers? (isFinite_memberReadings members bounded),
      by simp [reading]⟩
  | .array items, bounded =>
    ⟨bounded, fun _ => isFinite_of_ofRow? (isFinite_itemReadings items bounded),
      fun _ => areFinite_of_mapM (isFinite_itemReadings items bounded)⟩
  | .null, bounded | .bool _, bounded | .integer _, bounded | .float _, bounded | .text _, bounded =>
    ⟨bounded, by simp [reading], by simp [reading]⟩

theorem isFinite_memberReadings : ∀ members : List (String × Json),
    Json.membersAreBounded members = true → ∀ entry ∈ memberReadings members, entry.2.IsFinite
  | [], _ => by simp [memberReadings]
  | (name, value) :: rest, bounded => by
    have both := Bool.and_eq_true_iff.mp bounded
    have first := isFinite_reading value both.1
    have others := isFinite_memberReadings rest both.2
    simpa [memberReadings] using ⟨first, fun a b => others (a, b)⟩

theorem isFinite_itemReadings : ∀ items : List Json,
    Json.areBounded items = true → ∀ r ∈ itemReadings items, r.IsFinite
  | [], _ => by simp [itemReadings]
  | item :: rest, bounded => by
    have both := Bool.and_eq_true_iff.mp bounded
    have first := isFinite_reading item both.1
    have others := isFinite_itemReadings rest both.2
    simpa [itemReadings] using ⟨first, others⟩

end

/-- A tree that is read from a value that a JSON text can hold has finite floats. -/
theorem isFinite_of_ofJson? {j : Json} {s : Source} (bounded : j.isBounded = true)
    (read : ofJson? j = some s) : s.isFinite = true := by
  cases j with
  | object members => exact isFinite_of_ofMembers? (isFinite_memberReadings members bounded) read
  | array items => exact isFinite_of_ofRow? (isFinite_itemReadings items bounded) read
  | _ => cases read

theorem ofJson?_toJson (s : Source) : ofJson? s.toJson = some s := by
  obtain ⟨members, written, read⟩ := ofMembers?_toJson Kind.ofJson? Kind.ofName?_name s
  rw [written]
  exact read

/-- What is written for a tree is read as the tree, and so is what is written for a tree that
was read from a value of any other form. A tree with finite floats is written with numbers that
JSON can hold, and only such a tree is read from them. -/
theorem json_roundTrip :
    (∀ s : Source, ofJson? s.toJson = some s ∧ (s.isFinite = true → s.toJson.isBounded = true)) ∧
      ∀ (j : Json) (s : Source), ofJson? j = some s →
        ofJson? s.toJson = some s ∧ (j.isBounded = true → s.isFinite = true) :=
  ⟨fun s => ⟨ofJson?_toJson s, isBounded_toJson s⟩,
    fun _ s read => ⟨ofJson?_toJson s, fun bounded => isFinite_of_ofJson? bounded read⟩⟩

/-- A call whose members stand in another order than they are written in, with one too many,
without arguments, and with kinds, notes and a float in forms that are only read. -/
def looseCall : Json :=
  .object [("extra", .bool true),
    ("target", .object [("tag", .text "."), ("kind", .integer 6),
      ("args", .array [
        .object [("kind", .text "form"), ("tag", .text "m"), ("args", .null),
          ("meta", .object [("line", .null), ("column", .integer 5)])],
        .array [.text "float", .integer 2]])]),
    ("kind", .text "call")]

theorem json_roundTrip_looseCall :
    ∃ s, ofJson? looseCall = some s ∧ looseCall.isBounded = true ∧
      ofJson? s.toJson = some s ∧ s.isFinite = true ∧ s.toJson.isBounded = true := by
  have read : ofJson? looseCall =
      some (.call (.form "." .empty [.symbol "m" ⟨none, some 5⟩, .float (.ofInt 2)]) .empty []) := rfl
  have bounded : looseCall.isBounded = true := by decide
  obtain ⟨again, finite⟩ := json_roundTrip.2 _ _ read
  exact ⟨_, read, bounded, again, finite bounded, (json_roundTrip.1 _).2 (finite bounded)⟩

end Source

end SyntaxGraph
