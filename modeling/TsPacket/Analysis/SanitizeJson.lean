import Mathlib.Algebra.Order.Ring.Rat
import TsPacket.Lib.OrderedDict
import TsPacket.Lib.PyData

/-!
# JSON of a summary

`sanitize_json` and `to_json` of `analysis/tsn_analysis/report.py`.  The tests for the type of
a value are made in an order, since the types overlap: a boolean is an integer, and numpy's
double is a float and one of numpy's floats.  numpy has floats that are wider than a double, and
`float` of one of these may be another number, or infinite; `json` writes no integer that has
more digits than `str` does; and both functions call themselves for what is nested, so that a
value may be too deep for the interpreter's stack.  How many frames a call takes depends on the
interpreter, and is a parameter.

## Main definitions

* `Scalar` — what is not a container.
* `sanitizeScalar`, `sanitizeJson` — plain values, with `None` for `nan` and infinities.
* `sanitized` — what comes out if the stack is never full.
* `toJson` — the text.
* `Scalar.Kept` — a number, boolean or string and its plain value.

## Main results

* `sanitizeJson_eq` — a value comes out exactly if the stack is large enough.
* `plain_sanitized` — **it is plain**, with no `nan` or infinity.
* `match_sanitized` — it has the same shape and the same values.
* `sanitized_of_plain` — plain values stay what they are.
* `sanitizeJson_strict` — all of it, and when `json.dumps` writes the result.
-/

namespace TsPacket

open PyText PyData Raise

/-! ### Values -/

/-- A float: `D` are the finite ones. -/
inductive PyFloat (D : Type)
  | nan
  | inf (negative : Bool)
  | finite (d : D)
  deriving DecidableEq

/-- Neither `math.isnan` nor `math.isinf`. -/
def PyFloat.IsFinite {D : Type} : PyFloat D → Prop
  | .finite _ => True
  | _ => False

instance {D : Type} : DecidablePred (PyFloat.IsFinite (D := D))
  | .nan => isFalse id
  | .inf _ => isFalse id
  | .finite _ => isTrue trivial

/-- What is not a container: `D` are the finite doubles, `N` the finite floats of numpy's other
types. -/
inductive Scalar (D N : Type)
  | bool (b : Bool)
  | npBool (b : Bool)
  | int (z : ℤ)
  | npInt (z : ℤ)
  | float (x : PyFloat D)
  | float64 (x : PyFloat D)
  | npFloat (x : PyFloat N)
  | path (s : Str)
  | str (s : Str)
  | none
  deriving DecidableEq

/-- Floats as Python and numpy have them. -/
structure FloatTypes (D N : Type) where
  value : D → ℚ
  npValue : N → ℚ
  /-- `float(x)`. -/
  narrow : N → PyFloat D
  /-- `float.__repr__`. -/
  repr : D → Str

/-- `float` of a number that a double can hold is this number. -/
def FloatTypes.Exact {D N : Type} (fl : FloatTypes D N) : Prop :=
  ∀ n d, fl.value d = fl.npValue n → ∃ d', fl.narrow n = .finite d' ∧ fl.value d' = fl.npValue n

variable {D N : Type}

/-! ### Types -/

/-- The types that are tested for. -/
inductive PyType
  | bool
  | int
  | float
  | path
  | npBool
  | npInteger
  | npFloating
  deriving DecidableEq

/-- The types that a scalar is an instance of. -/
def Scalar.types : Scalar D N → List PyType
  | .bool _ => [.bool, .int]
  | .npBool _ => [.npBool]
  | .int _ => [.int]
  | .npInt _ => [.npInteger]
  | .float _ => [.float]
  | .float64 _ => [.npFloating, .float]
  | .npFloat _ => [.npFloating]
  | .path _ => [.path]
  | .str _ => []
  | .none => []

/-- `isinstance` with a tuple of types. -/
def isinstance (obj : Scalar D N) (types : List PyType) : Bool := obj.types.any types.contains

section

variable (fl : FloatTypes D N)

/-- `bool(obj)`. -/
def toBool : Scalar D N → Bool
  | .bool b => b
  | .npBool b => b
  | .int z => z ≠ 0
  | .npInt z => z ≠ 0
  | .float (.finite d) => fl.value d ≠ 0
  | .float64 (.finite d) => fl.value d ≠ 0
  | .npFloat (.finite n) => fl.npValue n ≠ 0
  -- NaN and the infinities are not zero
  | .float _ => true
  | .float64 _ => true
  | .npFloat _ => true
  | .path _ => true
  | .str s => s ≠ []
  | .none => false

/-- `int(obj)`, where it is an integer or a boolean. -/
def toInteger : Scalar D N → ℤ
  | .bool b => if b then 1 else 0
  | .npBool b => if b then 1 else 0
  | .int z => z
  | .npInt z => z
  | _ => 0

/-- `float(obj)`, where it is a float. -/
def toFloat : Scalar D N → PyFloat D
  | .float x => x
  | .float64 x => x
  | .npFloat .nan => .nan
  | .npFloat (.inf negative) => .inf negative
  | .npFloat (.finite n) => fl.narrow n
  | _ => .nan

/-! ### `sanitize_json` -/

/-- `sanitize_json` of what is not a container. -/
def sanitizeScalar (obj : Scalar D N) : Scalar D N :=
  if isinstance obj [.bool, .npBool] then .bool (toBool fl obj)
  else if isinstance obj [.int, .npInteger] then .int (toInteger obj)
  else if isinstance obj [.float, .npFloating] then
    if (toFloat fl obj).IsFinite then .float (toFloat fl obj) else .none
  else
    match obj with
    | .path s => .str s
    | obj => obj

/-- `sanitize_json`, with `stack` frames left. -/
def sanitizeJson (fr : Frames (Scalar D N)) (stack : ℕ) :
    PyVal (Scalar D N) → Except JsonError (PyVal (Scalar D N))
  | .dict items => do
    let rest ← enter fr.dict stack
    let items ← items.mapM fun p => do
      let v ← sanitizeJson fr rest p.2
      -- keys may meet as texts, and then the last value stays
      return (PyKey.str p.1.text, v)
    return .dict (OrderedDict.ofItems items)
  | .list items => do
    let rest ← enter fr.list stack
    let items ← items.mapM fun v => sanitizeJson fr rest v
    return .list items
  | .tuple items => do
    let rest ← enter fr.list stack
    let items ← items.mapM fun v => sanitizeJson fr rest v
    return .list items
  | .ndarray tolist => do
    let rest ← enter fr.ndarray stack
    sanitizeJson fr rest tolist
  | .scalar obj => do
    let _ ← enter (fr.scalar obj) stack
    return .scalar (sanitizeScalar fl obj)
termination_by v => sizeOf v
decreasing_by
  · exact sizeOf_lt_dict (by assumption)
  all_goals decreasing_tactic

/-- What `sanitize_json` returns if the stack is never full. -/
def sanitized : PyVal (Scalar D N) → PyVal (Scalar D N)
  | .dict items =>
    .dict (OrderedDict.ofItems (items.map fun p => (.str p.1.text, sanitized p.2)))
  | .list items => .list (items.map fun v => sanitized v)
  | .tuple items => .list (items.map fun v => sanitized v)
  | .ndarray tolist => sanitized tolist
  | .scalar obj => .scalar (sanitizeScalar fl obj)
termination_by v => sizeOf v
decreasing_by
  · exact sizeOf_lt_dict (by assumption)
  all_goals decreasing_tactic

/-! ### `to_json` -/

/-- What `json` writes for a scalar, with `allow_nan=False`. -/
def scalarText : Scalar D N → Except JsonError Str
  | .bool b => .ok (if b then "true".toList else "false".toList)
  | .int z => if z.natAbs < 10 ^ maxStrDigits then .ok (strOf z) else .error .tooManyDigits
  | .float (.finite d) => .ok (fl.repr d)
  | .float64 (.finite d) => .ok (fl.repr d)
  -- `allow_nan=False`
  | .float _ => .error .outOfRange
  | .float64 _ => .error .outOfRange
  | .str s => .ok (quote s)
  | .none => .ok "null".toList
  -- no subclass of a type that the encoder knows
  | .npBool _ => .error .notSerializable
  | .npInt _ => .error .notSerializable
  | .npFloat _ => .error .notSerializable
  | .path _ => .error .notSerializable

/-- What `to_json` takes of the stack: `sanitize_json`, what `json.dumps` calls before it comes
to the value, and its own recursion. -/
structure JsonFrames (D N : Type) where
  sanitize : Frames (Scalar D N)
  /-- `sanitize_json` makes the same calls for every scalar. -/
  alike : ∀ x y, sanitize.scalar x = sanitize.scalar y
  dumps : ℕ
  encode : Frames (Scalar D N)

/-- `to_json`, with `stack` frames left. -/
def toJson (fr : JsonFrames D N) (stack : ℕ) (summary : PyVal (Scalar D N)) :
    Except JsonError Str := do
  let plain ← sanitizeJson fl fr.sanitize stack summary
  let rest ← enter fr.dumps stack
  jsonDumps fr.encode (scalarText fl) 0 rest plain

end

/-! ### Scalars -/

/-- The scalars of JSON, with finite numbers. -/
def Scalar.Plain : Scalar D N → Prop
  | .bool _ => True
  | .int _ => True
  | .float x => x.IsFinite
  | .str _ => True
  | .none => True
  | _ => False

/-- `nan`, or an infinity. -/
def Scalar.NotFinite : Scalar D N → Prop
  | .float x => ¬ x.IsFinite
  | .float64 x => ¬ x.IsFinite
  | .npFloat x => ¬ x.IsFinite
  | _ => False

/-- The plain value of a scalar: the same boolean, number or string, and `None` for what is not
finite.  For a number that no double can hold it is some double, or `None`. -/
inductive Scalar.Kept (fl : FloatTypes D N) : Scalar D N → Scalar D N → Prop
  | bool (b) : Kept fl (.bool b) (.bool b)
  | npBool (b) : Kept fl (.npBool b) (.bool b)
  | int (z) : Kept fl (.int z) (.int z)
  | npInt (z) : Kept fl (.npInt z) (.int z)
  | float (d) : Kept fl (.float (.finite d)) (.float (.finite d))
  | float64 (d) : Kept fl (.float64 (.finite d)) (.float (.finite d))
  | npFloat {n d} : fl.value d = fl.npValue n →
      Kept fl (.npFloat (.finite n)) (.float (.finite d))
  | tooWide {n obj} : (∀ d, fl.value d ≠ fl.npValue n) →
      (obj = .none ∨ ∃ d, obj = .float (.finite d)) → Kept fl (.npFloat (.finite n)) obj
  | notFinite {obj} : obj.NotFinite → Kept fl obj .none
  | path (s) : Kept fl (.path s) (.str s)
  | str (s) : Kept fl (.str s) (.str s)
  | none : Kept fl .none .none

/-- An integer does not have more digits than `str` writes. -/
def Scalar.Short : Scalar D N → Prop
  | .int z => z.natAbs < 10 ^ maxStrDigits
  | .npInt z => z.natAbs < 10 ^ maxStrDigits
  | _ => True

section

variable {fl : FloatTypes D N}

/-- The tests in their order: which one takes a scalar, and what it makes of it. -/
theorem sanitizeScalar_eq (obj : Scalar D N) :
    sanitizeScalar fl obj =
      match obj with
      | .bool b => .bool b
      | .npBool b => .bool b
      | .int z => .int z
      | .npInt z => .int z
      | .float x => if x.IsFinite then .float x else .none
      | .float64 x => if x.IsFinite then .float x else .none
      | .npFloat x =>
        if (toFloat fl (.npFloat x)).IsFinite then .float (toFloat fl (.npFloat x)) else .none
      | .path s => .str s
      | .str s => .str s
      | .none => .none := by
  cases obj <;> rfl

theorem plain_sanitizeScalar (obj : Scalar D N) : (sanitizeScalar fl obj).Plain := by
  have hfloat : ∀ x : PyFloat D,
      (if x.IsFinite then Scalar.float x else .none : Scalar D N).Plain := by
    intro x
    by_cases hx : x.IsFinite
    · simp [hx, Scalar.Plain]
    · simp [hx, Scalar.Plain]
  rw [sanitizeScalar_eq]
  cases obj with
  | float x => exact hfloat x
  | float64 x => exact hfloat x
  | npFloat x => exact hfloat _
  | _ => exact trivial

theorem sanitizeScalar_of_plain {obj : Scalar D N} (h : obj.Plain) :
    sanitizeScalar fl obj = obj := by
  rw [sanitizeScalar_eq]
  cases obj with
  | float x => exact if_pos h
  | bool b => rfl
  | int z => rfl
  | str s => rfl
  | none => rfl
  | npBool b => cases h
  | npInt z => cases h
  | float64 x => cases h
  | npFloat x => cases h
  | path s => cases h

/-- **A scalar is kept.** -/
theorem kept_sanitizeScalar (hfl : fl.Exact) (obj : Scalar D N) :
    Scalar.Kept fl obj (sanitizeScalar fl obj) := by
  rw [sanitizeScalar_eq]
  -- what is not a float is what it was
  cases obj with
  | bool b => exact .bool b
  | npBool b => exact .npBool b
  | int z => exact .int z
  | npInt z => exact .npInt z
  | path s => exact .path s
  | str s => exact .str s
  | none => exact .none
  | float x =>
    cases x with
    | finite d => exact .float d
    | nan => exact .notFinite id
    | inf negative => exact .notFinite id
  | float64 x =>
    cases x with
    | finite d => exact .float64 d
    | nan => exact .notFinite id
    | inf negative => exact .notFinite id
  | npFloat x =>
    cases x with
    | nan => exact .notFinite id
    | inf negative => exact .notFinite id
    -- a number that a double holds is kept, any other becomes some double or `None`
    | finite n =>
      have hfloat : toFloat fl (.npFloat (.finite n)) = fl.narrow n := rfl
      dsimp only
      rw [hfloat]
      by_cases hfits : ∃ d, fl.value d = fl.npValue n
      · obtain ⟨d, hd⟩ := hfits
        obtain ⟨d', hnarrow, hvalue⟩ := hfl n d hd
        rw [hnarrow]
        exact .npFloat hvalue
      · refine .tooWide (fun d hd => hfits ⟨d, hd⟩) ?_
        cases fl.narrow n with
        | finite d => exact Or.inr ⟨d, rfl⟩
        | nan => exact Or.inl rfl
        | inf negative => exact Or.inl rfl

/-- What is written for a plain scalar: an integer may have too many digits. -/
theorem exists_scalarText_iff {obj obj' : Scalar D N} (h : Scalar.Kept fl obj obj') :
    obj.Short ↔ ∃ s, scalarText fl obj' = .ok s := by
  -- an integer has a text up to 4300 digits
  have hint : ∀ z : ℤ, z.natAbs < 10 ^ maxStrDigits ↔
      ∃ s, scalarText fl (.int z : Scalar D N) = .ok s := by
    intro z
    by_cases hz : z.natAbs < 10 ^ maxStrDigits
    · refine iff_of_true hz ⟨strOf z, ?_⟩
      rw [scalarText, if_pos hz]
    · refine iff_of_false hz ?_
      rintro ⟨s, hs⟩
      rw [scalarText, if_neg hz] at hs
      cases hs
  cases h with
  | int z => exact hint z
  | npInt z => exact hint z
  -- a wide float became `null` or a finite number, and both have a text
  | tooWide _ h =>
    refine iff_of_true trivial ?_
    rcases h with rfl | ⟨d, rfl⟩
    · exact ⟨_, rfl⟩
    · exact ⟨_, rfl⟩
  | notFinite h =>
    refine iff_of_true ?_ ⟨_, rfl⟩
    cases obj with
    | int z => cases h
    | npInt z => cases h
    | _ => exact trivial
  | _ => exact iff_of_true trivial ⟨_, rfl⟩

/-! ### Nested values -/

/-- **`sanitize_json` returns a value exactly if the stack is large enough for it.** -/
theorem sanitizeJson_eq (fl : FloatTypes D N) (fr : Frames (Scalar D N)) (v : PyVal (Scalar D N)) :
    ∀ stack, sanitizeJson fl fr stack v
      = if v.frames fr ≤ stack then .ok (sanitized fl v) else .error .recursion := by
  -- a container raises the exception of the first value in it that does
  have hcontainer : ∀ {own stack : ℕ} {fits : Prop} [Decidable fits]
      {w : PyVal (Scalar D N)} {rest : Except JsonError (PyVal (Scalar D N))},
      (rest = if fits then .ok w else .error .recursion) →
      (if own ≤ stack then rest else .error .recursion)
        = if own ≤ stack ∧ fits then .ok w else .error .recursion := by
    intro own stack fits _ w rest hrest
    rw [hrest, ite_and]
  induction v using PyVal.induct with
  | scalar obj =>
    intro stack
    rw [sanitizeJson, enter_bind, PyVal.frames, sanitized]
    rfl
  | dict items ih =>
    intro stack
    have hitems := mapM_eq_ite (l := items) (e := JsonError.recursion)
      (f := fun p => do
        let v ← sanitizeJson fl fr (stack - fr.dict) p.2
        return (PyKey.str p.1.text, v))
      (g := fun p => (PyKey.str p.1.text, sanitized fl p.2))
      (p := fun p => p.2.frames fr ≤ stack - fr.dict) fun p hp => by
        rw [ih p hp]
        split <;> rfl
    rw [sanitizeJson, enter_bind, hitems, sanitized]
    simp only [PyVal.frames_dict_le_iff]
    apply hcontainer
    split <;> rfl
  | list items ih =>
    intro stack
    rw [sanitizeJson, enter_bind, mapM_eq_ite fun v hv => ih v hv (stack - fr.list), sanitized]
    simp only [PyVal.frames_list_le_iff]
    apply hcontainer
    split <;> rfl
  | tuple items ih =>
    intro stack
    rw [sanitizeJson, enter_bind, mapM_eq_ite fun v hv => ih v hv (stack - fr.list), sanitized]
    simp only [PyVal.frames_tuple_le_iff]
    apply hcontainer
    split <;> rfl
  | ndarray v ih =>
    intro stack
    rw [sanitizeJson, enter_bind, ih, sanitized]
    simp only [PyVal.frames_ndarray_le_iff]
    exact hcontainer rfl

/-- The result needs no larger stack. -/
theorem frames_sanitized_le {fl : FloatTypes D N} {fr : Frames (Scalar D N)}
    (halike : ∀ x y, fr.scalar x = fr.scalar y) (v : PyVal (Scalar D N)) :
    (sanitized fl v).frames fr ≤ v.frames fr := by
  induction v using PyVal.induct with
  | scalar obj =>
    rw [sanitized, PyVal.frames, PyVal.frames]
    exact (halike _ _).le
  -- of keys that meet as text one value stays
  | dict items ih =>
    obtain ⟨hown, hitems⟩ := PyVal.frames_dict_le_iff.mp (le_refl ((PyVal.dict items).frames fr))
    rw [sanitized]
    refine PyVal.frames_dict_le_iff.mpr ⟨hown, fun p hp => ?_⟩
    obtain ⟨q, hq, rfl⟩ := List.mem_map.mp (OrderedDict.mem_of_mem_ofItems hp)
    exact (ih q hq).trans (hitems q hq)
  | list items ih =>
    obtain ⟨hown, hitems⟩ := PyVal.frames_list_le_iff.mp (le_refl ((PyVal.list items).frames fr))
    rw [sanitized]
    exact PyVal.frames_list_le_iff.mpr
      ⟨hown, List.forall_mem_map.mpr fun v hv => (ih v hv).trans (hitems v hv)⟩
  | tuple items ih =>
    obtain ⟨hown, hitems⟩ := PyVal.frames_tuple_le_iff.mp (le_refl ((PyVal.tuple items).frames fr))
    rw [sanitized]
    exact PyVal.frames_list_le_iff.mpr
      ⟨hown, List.forall_mem_map.mpr fun v hv => (ih v hv).trans (hitems v hv)⟩
  | ndarray v ih =>
    rw [sanitized, PyVal.frames]
    exact ih.trans (Nat.le_add_left _ _)

/-- **What `sanitize_json` returns is plain**, with no `nan` or infinity. -/
theorem plain_sanitized (fl : FloatTypes D N) (v : PyVal (Scalar D N)) :
    (sanitized fl v).Plain Scalar.Plain := by
  induction v using PyVal.induct with
  | scalar obj =>
    rw [sanitized]
    exact .scalar (plain_sanitizeScalar obj)
  -- a key of the result is the string of some key
  | dict items ih =>
    rw [sanitized]
    refine .dict (fun p hp => ?_) (OrderedDict.nodup_ofItems _) fun p hp => ?_
    · obtain ⟨q, -, rfl⟩ := List.mem_map.mp (OrderedDict.mem_of_mem_ofItems hp)
      exact ⟨q.1.text, rfl⟩
    · obtain ⟨q, hq, rfl⟩ := List.mem_map.mp (OrderedDict.mem_of_mem_ofItems hp)
      exact ih q hq
  | list items ih =>
    rw [sanitized]
    exact .list (List.forall_mem_map.mpr ih)
  | tuple items ih =>
    rw [sanitized]
    exact .list (List.forall_mem_map.mpr ih)
  | ndarray v ih =>
    rw [sanitized]
    exact ih

/-- **Plain values stay what they are.** -/
theorem sanitized_of_plain {v : PyVal (Scalar D N)} (h : v.Plain Scalar.Plain) :
    sanitized fl v = v := by
  induction h with
  | scalar hobj => rw [sanitized, sanitizeScalar_of_plain hobj]
  | @dict items hkeys hnodup _ ih =>
    have hitems : (items.map fun p => (PyKey.str p.1.text, sanitized fl p.2)) = items := by
      refine (List.map_congr_left fun p hp => ?_).trans (List.map_id items)
      obtain ⟨s, hs⟩ := hkeys p hp
      rw [ih p hp, hs]
      exact Prod.ext hs.symm rfl
    rw [sanitized, hitems, OrderedDict.ofItems_eq_self hnodup]
  | @list items _ ih =>
    rw [sanitized]
    exact congrArg PyVal.list ((List.map_congr_left ih).trans (List.map_id items))

/-- The items of a dictionary with different keys stay in their places. -/
theorem sanitized_dict {items : List (PyKey × PyVal (Scalar D N))}
    (h : (items.map fun p => p.1.text).Nodup) :
    sanitized fl (.dict items)
      = .dict (items.map fun p => (.str p.1.text, sanitized fl p.2)) := by
  have hkeys : ((items.map fun p => (PyKey.str p.1.text, sanitized fl p.2)).map
      Prod.fst).Nodup := by
    rw [List.map_map]
    have hstr := h.map (f := PyKey.str) fun _ _ heq => PyKey.str.inj heq
    rw [List.map_map] at hstr
    exact hstr
  rw [sanitized, OrderedDict.ofItems_eq_self hkeys]

/-- **It has the same shape and the same values.** -/
theorem match_sanitized (hfl : fl.Exact) {v : PyVal (Scalar D N)} (hkeys : v.DistinctKeys) :
    v.Match (Scalar.Kept fl) (sanitized fl v) := by
  induction v using PyVal.induct with
  | scalar obj =>
    rw [sanitized]
    exact .scalar (kept_sanitizeScalar hfl obj)
  | dict items ih =>
    cases hkeys with
    | dict hnodup hvalues =>
      -- no key is lost, since their strings are different
      rw [sanitized_dict hnodup]
      refine .dict ?_ ?_
      · rw [List.map_map]
        rfl
      · rw [List.map_map, List.forall₂_map_left_iff, List.forall₂_map_right_iff, List.forall₂_same]
        exact fun p hp => ih p hp (hvalues p hp)
  | list items ih =>
    cases hkeys with
    | list hvalues =>
      rw [sanitized]
      refine .list ?_
      rw [List.forall₂_map_right_iff, List.forall₂_same]
      exact fun v hv => ih v hv (hvalues v hv)
  | tuple items ih =>
    cases hkeys with
    | tuple hvalues =>
      rw [sanitized]
      refine .tuple ?_
      rw [List.forall₂_map_right_iff, List.forall₂_same]
      exact fun v hv => ih v hv (hvalues v hv)
  | ndarray v ih =>
    cases hkeys with
    | ndarray hvalue =>
      rw [sanitized]
      exact .ndarray (ih hvalue)

end

/-- What fits the stacks and has short integers only is written. -/
theorem exists_toJson_iff {fl : FloatTypes D N} (hfl : fl.Exact) {fr : JsonFrames D N} {stack : ℕ}
    {v : PyVal (Scalar D N)} (hkeys : v.DistinctKeys) (hfits : v.frames fr.sanitize ≤ stack) :
    (∃ text, toJson fl fr stack v = .ok text)
      ↔ fr.dumps + (sanitized fl v).frames fr.encode ≤ stack ∧ v.All Scalar.Short := by
  have hshort := (match_sanitized hfl hkeys).all_iff fun _ _ h => exists_scalarText_iff h
  rw [toJson, sanitizeJson_eq, if_pos hfits, ok_bind, exists_enter_bind_iff,
    exists_jsonDumps_iff (plain_sanitized fl v), ← hshort, ← and_assoc]
  have hstack : (fr.dumps ≤ stack ∧ (sanitized fl v).frames fr.encode ≤ stack - fr.dumps)
      ↔ fr.dumps + (sanitized fl v).frames fr.encode ≤ stack := by omega
  rw [hstack]

/-- **The JSON of a summary is strict and loses nothing.**  A nested value that is too deep for
the stack raises `RecursionError`.  Of every other one whose dictionaries have keys with
different strings the result is plain and has the same shape and the same values, with `None`
for what is not finite; it stays what it is; and it is written exactly if the stack is large
enough for `json.dumps`, too, and no integer has more digits than `str` writes. -/
theorem sanitizeJson_strict {fl : FloatTypes D N} (hfl : fl.Exact) (fr : JsonFrames D N)
    (stack : ℕ) {v : PyVal (Scalar D N)} (hkeys : v.DistinctKeys) :
    (stack < v.frames fr.sanitize →
      sanitizeJson fl fr.sanitize stack v = .error .recursion ∧
      toJson fl fr stack v = .error .recursion) ∧
    (v.frames fr.sanitize ≤ stack → ∃ w, sanitizeJson fl fr.sanitize stack v = .ok w ∧
      w.Plain Scalar.Plain ∧ v.Match (Scalar.Kept fl) w ∧
      sanitizeJson fl fr.sanitize stack w = .ok w ∧
      ((∃ text, toJson fl fr stack v = .ok text)
        ↔ fr.dumps + w.frames fr.encode ≤ stack ∧ v.All Scalar.Short)) := by
  constructor
  · -- too deep for the first recursion
    intro hdeep
    have hraise : sanitizeJson fl fr.sanitize stack v = .error .recursion := by
      rw [sanitizeJson_eq, if_neg (Nat.not_le.mpr hdeep)]
    refine ⟨hraise, ?_⟩
    rw [toJson, hraise]
    rfl
  · intro hfits
    have hplain := plain_sanitized fl v
    -- the result is no deeper, so it fits again
    have hagain : (sanitized fl v).frames fr.sanitize ≤ stack :=
      (frames_sanitized_le fr.alike v).trans hfits
    refine ⟨sanitized fl v, ?_, hplain, match_sanitized hfl hkeys, ?_,
      exists_toJson_iff hfl hkeys hfits⟩
    · rw [sanitizeJson_eq, if_pos hfits]
    · rw [sanitizeJson_eq, if_pos hagain, sanitized_of_plain hplain]

/-! ### Whole numbers -/

/-- No double is as large as this, and finite. -/
def doubleBound : ℕ := 2 ^ 1024

/-- Floats that are whole numbers and not negative. -/
def FloatTypes.whole : FloatTypes {n : ℕ // n < doubleBound} ℕ where
  value d := d.1
  npValue n := n
  narrow n := if h : n < doubleBound then .finite ⟨n, h⟩ else .inf false
  repr d := strOf d.1 ++ ".0".toList

theorem FloatTypes.whole_exact : FloatTypes.whole.Exact := by
  intro n d h
  obtain rfl : d.1 = n := Nat.cast_injective h
  refine ⟨d, ?_, rfl⟩
  unfold FloatTypes.whole
  dsimp only
  rw [dif_pos d.2]

/-- A frame for every call, and one for the comprehension in which it calls itself; `json` has
one for every container. -/
def JsonFrames.plain : JsonFrames D N where
  sanitize := { scalar := fun _ => 1, dict := 2, list := 2, ndarray := 1 }
  alike _ _ := rfl
  dumps := 4
  encode := { scalar := fun _ => 0, dict := 1, list := 1, ndarray := 1 }

/-- A number for a key, a boolean in a tuple, and an array in which a value is missing. -/
theorem sanitizeJson_strict_nested :
    let v : PyVal (Scalar {n : ℕ // n < doubleBound} ℕ) := .dict
      [(.other "1".toList (some "1".toList), .tuple [.scalar (.npBool true), .scalar (.int 7)]),
        (.str "ci".toList, .ndarray (.list [.scalar (.float .nan)]))]
    ∃ w, sanitizeJson FloatTypes.whole JsonFrames.plain.sanitize 20 v = .ok w ∧
      w.Plain Scalar.Plain ∧ ∃ text, toJson FloatTypes.whole .plain 20 v = .ok text := by
  intro v
  have hkeys : v.DistinctKeys :=
    .pair (by decide) (.tuple (.scalars [_, _])) (.ndarray (.list (.scalars [_])))
  have hframes : v.frames JsonFrames.plain.sanitize ≤ 20 := by
    simp [v, PyVal.frames, JsonFrames.plain]
  obtain ⟨w, hw, hplain, -, -, htext⟩ :=
    (sanitizeJson_strict FloatTypes.whole_exact .plain 20 hkeys).2 hframes
  -- the two containers are left for the encoder; the array became a list
  have hencode : w.frames JsonFrames.plain.encode = 2 := by
    rw [sanitizeJson_eq, if_pos hframes] at hw
    rw [← Except.ok.inj hw, sanitized_dict (by decide)]
    simp [sanitized, PyVal.frames, JsonFrames.plain]
  have hseven : 7 < 10 ^ maxStrDigits :=
    lt_of_lt_of_le (show 7 < 2 ^ 64 by decide) two_pow_le
  refine ⟨w, hw, hplain, htext.mpr ⟨?_, ?_⟩⟩
  · rw [hencode]
    decide
  · simp [v, PyVal.all_dict_iff, PyVal.all_tuple_iff, PyVal.all_ndarray_iff, PyVal.all_list_iff,
      PyVal.all_scalar_iff, Scalar.Short, hseven]

/-- A list in a list, and so on. -/
def nestedList : ℕ → PyVal (Scalar D N)
  | 0 => .list []
  | n + 1 => .list [nestedList n]

theorem frames_nestedList (fr : Frames (Scalar D N)) (n : ℕ) :
    (nestedList n : PyVal (Scalar D N)).frames fr = fr.list * (n + 1) := by
  induction n with
  | zero => simp [nestedList, PyVal.frames]
  | succ n ih =>
    rw [nestedList, PyVal.frames, List.map_cons, List.map_nil, List.foldr_cons, List.foldr_nil,
      Nat.max_zero, ih, Nat.mul_succ fr.list (n + 1), Nat.add_comm]

/-- `json` refuses an integer with one digit more than `str` writes, the first number that is
too large for a double is taken for an infinity, and lists that are nested 501 times fill a
stack of a thousand frames. -/
theorem sanitizeJson_too_wide :
    toJson FloatTypes.whole .plain 1000 (.scalar (.int (10 ^ maxStrDigits : ℕ)))
        = .error .tooManyDigits ∧
      sanitizeJson FloatTypes.whole JsonFrames.plain.sanitize 1000
        (.scalar (.npFloat (.finite doubleBound))) = .ok (.scalar .none) ∧
      sanitizeJson FloatTypes.whole JsonFrames.plain.sanitize 1000 (nestedList 500)
        = .error .recursion := by
  refine ⟨?_, ?_, ?_⟩
  · -- one digit more than `str` of an integer writes
    have hlong : scalarText FloatTypes.whole (.int (10 ^ maxStrDigits : ℕ))
        = .error .tooManyDigits := by
      rw [scalarText, Int.natAbs_natCast, if_neg (lt_irrefl _)]
    have hsame : sanitizeJson FloatTypes.whole JsonFrames.plain.sanitize 1000
        (.scalar (.int (10 ^ maxStrDigits : ℕ)))
          = .ok (.scalar (.int (10 ^ maxStrDigits : ℕ))) := by
      rw [sanitizeJson, sanitizeScalar_eq]
      rfl
    rw [toJson, hsame, ok_bind, enter_bind, if_pos (by decide), jsonDumps, hlong]
    rfl
  · -- too wide for a double, so `float` makes it infinite and `null` takes its place
    have hwide : toFloat FloatTypes.whole (.npFloat (.finite doubleBound)) = .inf false := by
      unfold toFloat FloatTypes.whole
      dsimp only
      rw [dif_neg (lt_irrefl _)]
    rw [sanitizeJson, sanitizeScalar_eq]
    dsimp only
    rw [hwide]
    exact congrArg (fun obj => Except.ok (PyVal.scalar obj)) (if_neg id)
  · rw [sanitizeJson_eq, frames_nestedList]
    exact if_neg (show ¬ 2 * 501 ≤ 1000 by decide)

end TsPacket
