import Mathlib
import Tileboard.Proofs.Value.Alike
import Tileboard.Proofs.Value.Equality
import Tileboard.Proofs.Value.WellFormed

namespace Tileboard.Value

-- NaN stands in the value, at any depth.
inductive HasNan : Value → Prop
  | itself : HasNan (.real .nan)
  | item {items : List Value} {v : Value} (hv : v ∈ items) (h : HasNan v) : HasNan (.list items)
  | field {fields : List (String × Value)} {field : String × Value} (hfield : field ∈ fields)
      (h : HasNan field.2) : HasNan (.object fields)

section Objects

variable {xs ys zs : List (String × Value)}

theorem equal_object_iff : (Value.object xs).equal (.object ys) = true ↔ xs.length = ys.length ∧
    ∀ field ∈ xs, ∃ y, ys.lookup field.1 = some y ∧ field.2.equal y = true := by
  rw [equal, Bool.and_eq_true, beq_iff_eq, fieldsWithin_iff]

-- The names of an object are all there in an equal one, which has no more of them: so they are the
-- same names, and what the first has under each of them is equal to what the second has.
theorem equal_object_symm (hxs : (xs.map Prod.fst).Nodup) (hys : (ys.map Prod.fst).Nodup)
    (hvalues : ∀ x ∈ xs, ∀ y ∈ ys, x.2.equal y.2 = true → y.2.equal x.2 = true)
    (h : (Value.object xs).equal (.object ys) = true) :
    (Value.object ys).equal (.object xs) = true := by
  have hnames : (ys.map Prod.fst).Perm (xs.map Prod.fst) := (Alike.equal h).names_perm hxs
  obtain ⟨hlength, hwithin⟩ := equal_object_iff.mp h
  refine equal_object_iff.mpr ⟨hlength.symm, fun y hy => ?_⟩
  have hname : y.1 ∈ xs.map Prod.fst := hnames.mem_iff.mp (List.mem_map_of_mem hy)
  obtain ⟨x, hx, hxy⟩ := List.mem_map.mp hname
  obtain ⟨found, hfound, hequal⟩ := hwithin x hx
  have hsame : found = y.2 := by
    rw [hxy, lookup_of_mem hys hy] at hfound
    exact (Option.some.inj hfound).symm
  refine ⟨x.2, ?_, hvalues x hx y hy (hsame ▸ hequal)⟩
  rw [← hxy]
  exact lookup_of_mem hxs hx

theorem equal_object_trans
    (hvalues : ∀ x ∈ xs, ∀ y ∈ ys, ∀ z ∈ zs,
      x.2.equal y.2 = true → y.2.equal z.2 = true → x.2.equal z.2 = true)
    (hxy : (Value.object xs).equal (.object ys) = true)
    (hyz : (Value.object ys).equal (.object zs) = true) :
    (Value.object xs).equal (.object zs) = true := by
  obtain ⟨hlength, hwithin⟩ := equal_object_iff.mp hxy
  obtain ⟨hlength', hwithin'⟩ := equal_object_iff.mp hyz
  refine equal_object_iff.mpr ⟨hlength.trans hlength', fun x hx => ?_⟩
  obtain ⟨y, hy, hequal⟩ := hwithin x hx
  obtain ⟨z, hz, hequal'⟩ := hwithin' (x.1, y) (mem_of_lookup hy)
  exact ⟨z, hz, hvalues x hx _ (mem_of_lookup hy) _ (mem_of_lookup hz) hequal hequal'⟩

end Objects

section Equality

variable {u v w : Value}

theorem canBeKey_eq_of_equal (h : v.equal w = true) : v.canBeKey = w.canBeKey := by
  cases v <;> cases w <;> first | rfl | simp [equal] at h

theorem equal_list_iff {xs : List Value} : (Value.list xs).equal w = true ↔
    ∃ ys, w = .list ys ∧ List.Forall₂ (fun x y => x.equal y = true) xs ys := by
  cases w with
  | list ys => simp [equal, equalLists_iff]
  | _ => simp [equal]

theorem equal_symm (hv : v.WellFormed) (hw : w.WellFormed) (h : v.equal w = true) :
    w.equal v = true := by
  induction hv generalizing w with
  | key hkey =>
      have hkey' : w.canBeKey = true := by rw [← canBeKey_eq_of_equal h, hkey]
      rw [equal_comm_of_key hkey' hkey]
      exact h
  | @list xs hxs ih =>
      obtain ⟨ys, rfl, hitems⟩ := equal_list_iff.mp h
      rw [wellFormed_list_iff] at hw
      refine equal_list_iff.mpr ⟨xs, rfl, List.forall₂_iff_get.mpr ⟨hitems.length_eq.symm, ?_⟩⟩
      intro i hi hi'
      exact ih _ (List.get_mem _ _) (hw _ (List.get_mem _ _)) (hitems.get hi' hi)
  | @object xs hnames hxs ih =>
      cases w with
      | object ys =>
          obtain ⟨hnames', hys⟩ := wellFormed_object_iff.mp hw
          refine equal_object_symm hnames hnames' (fun x hx y hy hequal => ?_) h
          exact ih x hx (hys y hy) hequal
      | _ => simp [equal] at h

theorem equal_comm (hv : v.WellFormed) (hw : w.WellFormed) : v.equal w = w.equal v := by
  rw [Bool.eq_iff_iff]
  exact ⟨equal_symm hv hw, equal_symm hw hv⟩

theorem equal_trans (hv : v.WellFormed) (huv : u.equal v = true) (hvw : v.equal w = true) :
    u.equal w = true := by
  induction hv generalizing u w with
  | key hkey =>
      have hu : u.canBeKey = true := by rw [canBeKey_eq_of_equal huv, hkey]
      have hw : w.canBeKey = true := by rw [← canBeKey_eq_of_equal hvw, hkey]
      exact equal_trans_of_key hu hkey hw huv hvw
  | @list ys hys ih =>
      obtain ⟨zs, rfl, hyz⟩ := equal_list_iff.mp hvw
      cases u with
      | list xs =>
          obtain ⟨_, heq, hxy⟩ := equal_list_iff.mp huv
          cases heq
          have hlength := hxy.length_eq.trans hyz.length_eq
          refine equal_list_iff.mpr ⟨zs, rfl, List.forall₂_iff_get.mpr ⟨hlength, ?_⟩⟩
          intro i hi hi'
          have hmiddle : i < ys.length := hxy.length_eq ▸ hi
          exact ih _ (List.get_mem _ ⟨i, hmiddle⟩) (hxy.get hi hmiddle) (hyz.get hmiddle hi')
      | _ => simp [equal] at huv
  | @object ys hnames hys ih =>
      cases u with
      | object xs =>
          cases w with
          | object zs =>
              exact equal_object_trans (fun x _ y hy z _ hxy hyz => ih y hy hxy hyz) huv hvw
          | _ => simp [equal] at hvw
      | _ => simp [equal] at huv

theorem hasNan_key_iff (h : v.canBeKey = true) : HasNan v ↔ v = .real .nan := by
  constructor
  · intro hnan
    cases hnan with
    | itself => rfl
    | item => cases h
    | field => cases h
  · rintro rfl
    exact .itself

theorem hasNan_list_iff {xs : List Value} : HasNan (.list xs) ↔ ∃ x ∈ xs, HasNan x := by
  constructor
  · rintro (_ | ⟨hx, h⟩)
    exact ⟨_, hx, h⟩
  · rintro ⟨x, hx, h⟩
    exact .item hx h

theorem hasNan_object_iff {xs : List (String × Value)} :
    HasNan (.object xs) ↔ ∃ x ∈ xs, HasNan x.2 := by
  constructor
  · rintro (_ | _ | ⟨hx, h⟩)
    exact ⟨_, hx, h⟩
  · rintro ⟨x, hx, h⟩
    exact .field hx h

theorem equal_object_self_iff {xs : List (String × Value)} (hnames : (xs.map Prod.fst).Nodup) :
    (Value.object xs).equal (.object xs) = true ↔ ∀ x ∈ xs, x.2.equal x.2 = true := by
  rw [equal_object_iff]
  constructor
  · rintro ⟨-, hwithin⟩ x hx
    obtain ⟨y, hy, hequal⟩ := hwithin x hx
    rw [lookup_of_mem hnames hx] at hy
    cases hy
    exact hequal
  · exact fun h => ⟨rfl, fun x hx => ⟨x.2, lookup_of_mem hnames hx, h x hx⟩⟩

theorem equal_self_iff (hv : v.WellFormed) : v.equal v = true ↔ ¬HasNan v := by
  induction hv with
  | @key v hkey =>
      rw [hasNan_key_iff hkey]
      refine ⟨?_, equal_self_of_key hkey⟩
      rintro h rfl
      cases h
  | @list xs hxs ih =>
      rw [equal, equalLists_iff, List.forall₂_same, hasNan_list_iff, not_exists]
      simp only [not_and]
      exact forall₂_congr ih
  | @object xs hnames hxs ih =>
      rw [equal_object_self_iff hnames, hasNan_object_iff, not_exists]
      simp only [not_and]
      exact forall₂_congr ih

end Equality

section Matching

variable {a b c : Value}

theorem wellFormed_normalize (h : a.WellFormed) : a.normalize.WellFormed := by
  cases a with
  | text s => exact .key rfl
  | _ => exact h

theorem hasNan_normalize : HasNan a.normalize ↔ HasNan a := by
  cases a with
  | text s => rw [normalize, hasNan_key_iff rfl, hasNan_key_iff rfl]; simp [real]
  | _ => rfl

theorem matchesValue_iff : a.matchesValue b = true ↔
    isBool a.normalize = isBool b.normalize ∧ a.normalize.equal b.normalize = true := by
  rw [matchesValue, Bool.and_eq_true, beq_iff_eq]

-- To match is symmetric and transitive, and what matches its own copy is what holds no NaN.
theorem matchesValue_partial_equivalence (ha : a.WellFormed) (hb : b.WellFormed) :
    a.matchesValue b = b.matchesValue a ∧
    (a.matchesValue b = true → b.matchesValue c = true → a.matchesValue c = true) ∧
    (a.matchesValue a = true ↔ ¬HasNan a) := by
  have ha' := wellFormed_normalize ha
  have hb' := wellFormed_normalize hb
  refine ⟨?_, ?_, ?_⟩
  · rw [Bool.eq_iff_iff, matchesValue_iff, matchesValue_iff, equal_comm ha' hb', eq_comm]
  · intro hab hbc
    obtain ⟨hbool, hequal⟩ := matchesValue_iff.mp hab
    obtain ⟨hbool', hequal'⟩ := matchesValue_iff.mp hbc
    exact matchesValue_iff.mpr ⟨hbool.trans hbool', equal_trans hb' hequal hequal'⟩
  · rw [matchesValue_iff, equal_self_iff ha', hasNan_normalize]
    simp

-- The fields of two objects in another order, the numbers in them of different kinds. The last of
-- the three has true where the others have one.
def inches : Value := .object [("unit", .text "in"), ("sizes", .list [.int 1, .int (2 ^ 53)])]

def reordered : Value :=
  .object [("sizes", .list [.real (.ofInt 1), .real (.ofInt (2 ^ 53))]), ("unit", .text "in")]

def truthful : Value := .object [("unit", .text "in"), ("sizes", .list [.bool true, .int (2 ^ 53)])]

theorem inches_matches_truthful : inches.matchesValue truthful = true ∧
    reordered.matchesValue inches = inches.matchesValue reordered ∧ ¬HasNan reordered := by
  have hinches : inches.WellFormed := by simp [inches, int]
  have hreordered : reordered.WellFormed := by simp [reordered, real]
  have hthere : inches.matchesValue reordered = true := by decide +kernel
  have hback : reordered.matchesValue truthful = true := by decide +kernel
  have hself : reordered.matchesValue reordered = true := by decide +kernel
  obtain ⟨-, htrans, -⟩ := matchesValue_partial_equivalence (c := truthful) hinches hreordered
  obtain ⟨hcomm, -, hnan⟩ := matchesValue_partial_equivalence (c := truthful) hreordered hinches
  exact ⟨htrans hthere hback, hcomm, hnan.mp hself⟩

end Matching

end Tileboard.Value
