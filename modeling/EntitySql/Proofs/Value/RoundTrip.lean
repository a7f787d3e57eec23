import EntitySql.Proofs.Number.Narrowing
import EntitySql.Value.FieldType

namespace EntitySql.FieldType

/-- A content without a single-precision NaN, and none that would be taken for absent. -/
def Restorable : (t : FieldType) → t.Content → Prop
  | single, x => Single.isNan x = false
  | optional _, none => True
  | optional t, some x => t.toValue x ≠ .null ∧ t.Restorable x
  | _, _ => True

private theorem ofValue_integerValue (t : IntegerType) (n : Integer t) :
    ofValue (integer t) (integerValue t n) = .ok n := by
  have hval (m : Int) (hm : m = n.val) : integerOf t m = .ok n := by
    rw [integerOf, hm, Integer.ofInt?_val]
  cases t <;> exact hval _ rfl

/-- Anything but null is read into an optional field as into the field itself. -/
theorem ofValue_optional (t : FieldType) {v : Value} (hv : v ≠ .null) :
    (optional t).ofValue v = match t.ofValue v with
      | .ok x => .ok (some x)
      | .error m => .error m := by
  cases v with
  | null => exact absurd rfl hv
  | _ => rfl

theorem ofValue_toValue {t : FieldType} {x : t.Content} (h : t.Restorable x) :
    t.ofValue (t.toValue x) = .ok x := by
  induction t with
  | integer t => exact ofValue_integerValue t x
  | single => exact congrArg Except.ok (Single.ofDouble_toDouble h)
  | optional t ih =>
    cases x with
    | none => rfl
    | some x =>
      obtain ⟨hnull, hinside⟩ := h
      have hx : t.ofValue (t.toValue x) = .ok x := ih hinside
      have hread := ofValue_optional t hnull
      rw [hx] at hread
      exact hread
  | _ => rfl

/-- Nothing but null is read as a content that becomes null. -/
theorem toValue_ne_null {t : FieldType} {v : Value} {x : t.Content} (hv : v ≠ .null)
    (h : t.ofValue v = .ok x) : t.toValue x ≠ .null := by
  induction t with
  | integer t => cases t <;> exact nofun
  | optional t ih =>
    rw [ofValue_optional t hv] at h
    cases hx : t.ofValue v with
    | error misfit =>
      rw [hx] at h
      cases h
    | ok y =>
      rw [hx] at h
      cases h
      exact ih hx
  | value =>
    cases h
    exact hv
  | _ => exact nofun

/-- A single-precision content that is read from a value was rounded already. -/
theorem ofDouble_toDouble_of_single {v : Value} {x : Single} (h : ofValue single v = .ok x) :
    Single.ofDouble x.toDouble = x := by
  cases v with
  | float y =>
    cases h
    exact Single.ofDouble_toDouble_ofDouble y
  | int n =>
    cases h
    exact Single.ofDouble_toDouble (Single.isNan_ofNat (Binary.nearest_le _ _))
  | _ => cases h

/-- What is read from a value is read again from its own value, whichever of several values it was. -/
theorem ofValue_toValue_of_ofValue {t : FieldType} {v : Value} {x : t.Content} (h : t.ofValue v = .ok x) :
    t.ofValue (t.toValue x) = .ok x := by
  induction t generalizing v with
  | integer t => exact ofValue_integerValue t x
  | single => exact congrArg Except.ok (ofDouble_toDouble_of_single h)
  | optional t ih =>
    by_cases hv : v = .null
    · subst hv
      cases h
      rfl
    · rw [ofValue_optional t hv] at h
      cases hx : t.ofValue v with
      | error misfit =>
        rw [hx] at h
        cases h
      | ok y =>
        rw [hx] at h
        cases h
        -- The content inside does not become null, so it is read inside again.
        have hread := ofValue_optional t (toValue_ne_null hv hx)
        rw [ih hx] at hread
        exact hread
  | _ => rfl

end EntitySql.FieldType
