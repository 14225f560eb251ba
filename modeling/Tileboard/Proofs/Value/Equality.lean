import Tileboard.Record

namespace Tileboard

namespace Number

theorem same_iff {x y : Number} :
    same x y = true ↔ ∃ p, x.place? = some p ∧ y.place? = some p := by
  unfold same
  cases x.place? with
  | none => simp
  | some p =>
      cases y.place? with
      | none => simp
      | some q => simpa using eq_comm

theorem place?_eq_of_same {x y : Number} (h : same x y = true) : x.place? = y.place? := by
  obtain ⟨p, hx, hy⟩ := same_iff.mp h
  rw [hx, hy]

theorem same_congr {x y : Number} (h : x.place? = y.place?) (z : Number) :
    same x z = same y z := by
  unfold same
  rw [h]

theorem same_comm (x y : Number) : same x y = same y x := by
  rw [Bool.eq_iff_iff, same_iff, same_iff]
  exact exists_congr fun p => and_comm

theorem nan_same (x : Number) : same (.real .nan) x = false := rfl

-- NaN alone has no place.
theorem exists_place {x : Number} (h : x ≠ .real .nan) : ∃ p, x.place? = some p := by
  cases x with
  | int n => exact ⟨_, rfl⟩
  | real x =>
      cases x with
      | nan => exact absurd rfl h
      | _ => exact ⟨_, rfl⟩

theorem place?_real {x : Binary64} {q : Rat} (h : x.toRat? = some q) :
    (real x).place? = some (0, q) := by
  cases x with
  | nan | infinite => cases h
  | finite => rw [place?, h, Option.getD_some]

end Number

theorem Comparison.onNumbers_congr {x y : Number} (cmp : Comparison) (h : x.place? = y.place?)
    (z : Number) : cmp.onNumbers x z = cmp.onNumbers y z := by
  cases cmp <;> simp only [onNumbers, Number.same, Number.before, h]

theorem Comparison.onNumbers_nan (cmp : Comparison) (x : Number) :
    cmp.onNumbers (.real .nan) x = false := by
  cases cmp <;> cases x.place? <;>
    simp [onNumbers, Number.same, Number.before, Number.place?]

namespace Value

theorem equal_number_congr {x y : Number} (h : x.place? = y.place?) (v : Value) :
    equal (.number x) v = equal (.number y) v := by
  cases v with
  | bool b => exact Number.same_congr h _
  | number n => exact Number.same_congr h n
  | _ => simp [equal]

theorem matchesValue_number_congr {x y : Number} (h : x.place? = y.place?) (v : Value) :
    matchesValue (.number x) v = matchesValue (.number y) v := by
  simp only [matchesValue, normalize, isBool, equal_number_congr h]

theorem matchesValue_nan (v : Value) : matchesValue (.real .nan) v = false := by
  cases v <;> simp [matchesValue, normalize, real, equal, Number.nan_same]

theorem matchesValue_null (v : Value) : matchesValue .null v = v.isNull := by
  cases v <;> simp [matchesValue, normalize, equal, isNull, isBool]

theorem compare?_number_congr {x y : Number} (cmp : Comparison) (h : x.place? = y.place?)
    (v : Value) : compare? cmp (.number x) v = compare? cmp (.number y) v := by
  cases v with
  | bool b => exact congrArg some (cmp.onNumbers_congr h _)
  | number n => exact congrArg some (cmp.onNumbers_congr h n)
  | _ => simp [compare?]

theorem compare?_nan (cmp : Comparison) (v : Value) :
    (compare? cmp (.real .nan) v).getD false = false := by
  cases v with
  | bool b => exact cmp.onNumbers_nan _
  | number n => exact cmp.onNumbers_nan n
  | _ => simp [compare?, real]

theorem compare?_null (cmp : Comparison) (v : Value) : compare? cmp .null v = none := by
  cases v <;> simp [compare?]

-- What the equality of keys goes by: the place of a number, the characters of a text.
inductive Mark where
  | null
  | place (p : Int × Rat)
  | text (s : String)

-- The mark of a value that can be a key. NaN has none.
def mark? : Value → Option Mark
  | .null => some .null
  | .bool b => (Number.int (if b then 1 else 0)).place?.map .place
  | .number n => n.place?.map .place
  | .text s => some (.text s)
  | _ => none

theorem same_iff_mark {x y : Number} : Number.same x y = true ↔
    ∃ m, x.place?.map Mark.place = some m ∧ y.place?.map Mark.place = some m := by
  rw [Number.same_iff]
  constructor
  · rintro ⟨p, hx, hy⟩
    exact ⟨.place p, by rw [hx]; rfl, by rw [hy]; rfl⟩
  · rintro ⟨m, hx, hy⟩
    obtain ⟨p, hp, rfl⟩ := Option.map_eq_some_iff.mp hx
    obtain ⟨q, hq, h⟩ := Option.map_eq_some_iff.mp hy
    cases h
    exact ⟨p, hp, hq⟩

-- Two keys are equal when they have one mark.
theorem equal_iff_mark {v w : Value} (hv : v.canBeKey = true) (hw : w.canBeKey = true) :
    v.equal w = true ↔ ∃ m, v.mark? = some m ∧ w.mark? = some m := by
  cases v with
  | null => cases w <;> simp_all [equal, mark?, canBeKey]
  | bool a =>
      cases w with
      | bool b => cases a <;> cases b <;> simp [equal, mark?, Number.place?]
      | number n => exact same_iff_mark
      | _ => simp_all [equal, mark?, canBeKey]
  | number x =>
      cases w with
      | bool b => exact same_iff_mark
      | number y => exact same_iff_mark
      | _ => simp_all [equal, mark?, canBeKey]
  | text s =>
      cases w with
      | text t => simpa [equal, mark?] using eq_comm
      | _ => simp_all [equal, mark?, canBeKey]
  | _ => cases hv

theorem equal_comm_of_key {v w : Value} (hv : v.canBeKey = true) (hw : w.canBeKey = true) :
    v.equal w = w.equal v := by
  rw [Bool.eq_iff_iff, equal_iff_mark hv hw, equal_iff_mark hw hv]
  exact exists_congr fun m => and_comm

theorem equal_trans_of_key {u v w : Value} (hu : u.canBeKey = true) (hv : v.canBeKey = true)
    (hw : w.canBeKey = true) (huv : u.equal v = true) (hvw : v.equal w = true) :
    u.equal w = true := by
  obtain ⟨m, hum, hvm⟩ := (equal_iff_mark hu hv).mp huv
  obtain ⟨n, hvn, hwn⟩ := (equal_iff_mark hv hw).mp hvw
  rw [hvm] at hvn
  cases hvn
  exact (equal_iff_mark hu hw).mpr ⟨m, hum, hwn⟩

-- What is equal to one of two different keys is not equal to the other.
theorem equal_eq_false_of_key {u v w : Value} (hu : u.canBeKey = true) (hv : v.canBeKey = true)
    (hw : w.canBeKey = true) (huv : u.equal v = false) (hvw : v.equal w = true) :
    u.equal w = false := by
  rw [equal_comm_of_key hv hw] at hvw
  cases h : u.equal w with
  | false => rfl
  | true =>
      rw [equal_trans_of_key hu hw hv h hvw] at huv
      cases huv

theorem equal_self_of_key {v : Value} (hv : v.canBeKey = true) (hne : v ≠ .real .nan) :
    v.equal v = true := by
  have hmark : ∃ m, v.mark? = some m := by
    cases v with
    | number x =>
        have hx : x ≠ .real .nan := fun hnan => hne (congrArg Value.number hnan)
        obtain ⟨p, hp⟩ := Number.exists_place hx
        exact ⟨.place p, by rw [mark?, hp]; rfl⟩
    | list items => cases hv
    | object fields => cases hv
    | _ => exact ⟨_, rfl⟩
  obtain ⟨m, hm⟩ := hmark
  exact (equal_iff_mark hv hv).mpr ⟨m, hm, hm⟩

end Value

end Tileboard
