import Mathlib.Data.List.Forall2
import Mathlib.Data.List.Nodup
import Mathlib.Tactic.Common
import TsPacket.Lib.PyText
import TsPacket.Lib.Raise

/-!
# Nested data

Values nested from dictionaries, lists, tuples and arrays to any depth, and what `json.dumps`
makes of them.  What is not such a container is a scalar; of these a module that uses this
one has its own type.  An array is known by what its `tolist` returns, and as an array of
objects may hold anything, that may be any value.

## Main definitions

* `PyVal` — nested data with scalars of a type.
* `PyVal.DistinctKeys`, `PyVal.All` — no dictionary has a key twice, every scalar has a property.
* `PyVal.Plain` — the containers are those of JSON.
* `PyVal.Match` — two values of the same shape, scalar by scalar.
* `Frames`, `PyVal.frames` — the stack that a function needs which calls itself for nested data.
* `jsonDumps` — `json.dumps`, with an indent of two.

## Main results

* `PyVal.induct` — **induction over nested data.**
* `exists_jsonDumps_iff` — plain data can be written exactly if it fits the stack and every
  scalar can be.
-/

namespace PyData

open PyText Raise

/-! ### Values -/

/-- A key of a dictionary: a string, or something else with its `str` and what `json` writes
for it, if it can. -/
inductive PyKey
  | str (s : Str)
  | other (s : Str) (json : Option Str)
  deriving DecidableEq

/-- `str(k)`. -/
def PyKey.text : PyKey → Str
  | .str s => s
  | .other s _ => s

/-- Nested data. -/
inductive PyVal (α : Type)
  | scalar (x : α)
  | dict (items : List (PyKey × PyVal α))
  | list (items : List (PyVal α))
  | tuple (items : List (PyVal α))
  | ndarray (tolist : PyVal α)

variable {α β : Type}

theorem sizeOf_lt_dict [SizeOf α] {items : List (PyKey × PyVal α)} {p : PyKey × PyVal α}
    (h : p ∈ items) : sizeOf p.2 < sizeOf (PyVal.dict items) := by
  have hp := List.sizeOf_lt_of_mem h
  obtain ⟨k, v⟩ := p
  simp only [Prod.mk.sizeOf_spec, PyVal.dict.sizeOf_spec] at hp ⊢
  omega

/-- **Induction over nested data**: a container has a property if what it holds does. -/
theorem PyVal.induct {P : PyVal α → Prop} (scalar : ∀ x, P (.scalar x))
    (dict : ∀ items, (∀ p ∈ items, P p.2) → P (.dict items))
    (list : ∀ items, (∀ v ∈ items, P v) → P (.list items))
    (tuple : ∀ items, (∀ v ∈ items, P v) → P (.tuple items))
    (ndarray : ∀ v, P v → P (.ndarray v)) : ∀ v, P v
  | .scalar x => scalar x
  | .dict items => dict items fun p _ => PyVal.induct scalar dict list tuple ndarray p.2
  | .list items => list items fun v _ => PyVal.induct scalar dict list tuple ndarray v
  | .tuple items => tuple items fun v _ => PyVal.induct scalar dict list tuple ndarray v
  | .ndarray v => ndarray v (PyVal.induct scalar dict list tuple ndarray v)
termination_by v => sizeOf v
decreasing_by
  · exact sizeOf_lt_dict (by assumption)
  all_goals decreasing_tactic

/-- Every scalar has a property. -/
inductive PyVal.All (P : α → Prop) : PyVal α → Prop
  | scalar {x} : P x → All P (.scalar x)
  | dict {items} : (∀ p ∈ items, All P p.2) → All P (.dict items)
  | list {items} : (∀ v ∈ items, All P v) → All P (.list items)
  | tuple {items} : (∀ v ∈ items, All P v) → All P (.tuple items)
  | ndarray {v} : All P v → All P (.ndarray v)

/-- The keys of a dictionary have different strings. -/
inductive PyVal.DistinctKeys : PyVal α → Prop
  | scalar {x} : DistinctKeys (.scalar x)
  | dict {items} : (items.map fun p => p.1.text).Nodup → (∀ p ∈ items, DistinctKeys p.2) →
      DistinctKeys (.dict items)
  | list {items} : (∀ v ∈ items, DistinctKeys v) → DistinctKeys (.list items)
  | tuple {items} : (∀ v ∈ items, DistinctKeys v) → DistinctKeys (.tuple items)
  | ndarray {v} : DistinctKeys v → DistinctKeys (.ndarray v)

/-- The containers are dictionaries with strings for keys, and lists. -/
inductive PyVal.Plain (P : α → Prop) : PyVal α → Prop
  | scalar {x} : P x → Plain P (.scalar x)
  | dict {items} : (∀ p ∈ items, ∃ s, p.1 = .str s) → (items.map Prod.fst).Nodup →
      (∀ p ∈ items, Plain P p.2) → Plain P (.dict items)
  | list {items} : (∀ v ∈ items, Plain P v) → Plain P (.list items)

/-- `w` is `v` with lists for tuples and arrays, strings for keys, and for every scalar one
that it is related to. -/
inductive PyVal.Match (R : α → β → Prop) : PyVal α → PyVal β → Prop
  | scalar {x y} : R x y → Match R (.scalar x) (.scalar y)
  | dict {items items'} : items'.map Prod.fst = items.map (fun p => .str p.1.text) →
      List.Forall₂ (Match R) (items.map Prod.snd) (items'.map Prod.snd) →
      Match R (.dict items) (.dict items')
  | list {items items'} : List.Forall₂ (Match R) items items' → Match R (.list items) (.list items')
  | tuple {items items'} : List.Forall₂ (Match R) items items' →
      Match R (.tuple items) (.list items')
  | ndarray {v w} : Match R v w → Match R (.ndarray v) w

/-! ### Parts of nested data -/

theorem forall_iff_of_forall₂ {p : α → Prop} {q : β → Prop} {S : α → β → Prop} {l : List α}
    {l' : List β} (h : List.Forall₂ S l l') (hS : ∀ a ∈ l, ∀ b, S a b → (p a ↔ q b)) :
    (∀ a ∈ l, p a) ↔ ∀ b ∈ l', q b := by
  induction h with
  | nil => simp
  | cons hab _ ih =>
    obtain ⟨ha, hl⟩ := List.forall_mem_cons.mp hS
    rw [List.forall_mem_cons, List.forall_mem_cons, ha _ hab, ih hl]

namespace PyVal

variable {P : α → Prop} {R : α → β → Prop}

theorem all_scalar_iff {x : α} : (PyVal.scalar x).All P ↔ P x := by
  constructor
  · intro h
    cases h with
    | scalar h => exact h
  · exact .scalar

theorem all_dict_iff {items : List (PyKey × PyVal α)} :
    (PyVal.dict items).All P ↔ ∀ v ∈ items.map Prod.snd, v.All P := by
  rw [List.forall_mem_map]
  constructor
  · intro h
    cases h with
    | dict h => exact h
  · exact .dict

theorem all_list_iff {items : List (PyVal α)} :
    (PyVal.list items).All P ↔ ∀ v ∈ items, v.All P := by
  constructor
  · intro h
    cases h with
    | list h => exact h
  · exact .list

theorem all_tuple_iff {items : List (PyVal α)} :
    (PyVal.tuple items).All P ↔ ∀ v ∈ items, v.All P := by
  constructor
  · intro h
    cases h with
    | tuple h => exact h
  · exact .tuple

theorem all_ndarray_iff {v : PyVal α} : (PyVal.ndarray v).All P ↔ v.All P := by
  constructor
  · intro h
    cases h with
    | ndarray h => exact h
  · exact .ndarray

theorem DistinctKeys.pair {k k' : PyKey} {v v' : PyVal α} (hk : k.text ≠ k'.text)
    (hv : v.DistinctKeys) (hv' : v'.DistinctKeys) :
    (PyVal.dict [(k, v), (k', v')]).DistinctKeys := by
  refine .dict (by simpa using hk) ?_
  simp only [List.forall_mem_cons, List.not_mem_nil, false_imp_iff, implies_true, and_true]
  exact ⟨hv, hv'⟩

theorem DistinctKeys.scalars (xs : List α) : ∀ v ∈ xs.map PyVal.scalar, v.DistinctKeys :=
  List.forall_mem_map.mpr fun _ _ => .scalar

/-- **What holds of related scalars alike holds of data of the same shape alike.** -/
theorem Match.all_iff {Q : β → Prop} (hR : ∀ x y, R x y → (P x ↔ Q y)) {v : PyVal α} :
    ∀ {w : PyVal β}, Match R v w → (v.All P ↔ w.All Q) := by
  induction v using PyVal.induct with
  | scalar x =>
    intro w h
    cases h with
    | scalar hxy => rw [all_scalar_iff, all_scalar_iff, hR _ _ hxy]
  | dict items ih =>
    intro w h
    cases h with
    | dict _ hvalues =>
      rw [all_dict_iff, all_dict_iff]
      -- values are compared in place, keys hold no scalars
      refine forall_iff_of_forall₂ hvalues fun v hv w hvw => ?_
      obtain ⟨p, hp, rfl⟩ := List.mem_map.mp hv
      exact ih p hp hvw
  | list items ih =>
    intro w h
    cases h with
    | list hitems =>
      rw [all_list_iff, all_list_iff]
      exact forall_iff_of_forall₂ hitems fun v hv w hvw => ih v hv hvw
  | tuple items ih =>
    intro w h
    cases h with
    | tuple hitems =>
      rw [all_tuple_iff, all_list_iff]
      exact forall_iff_of_forall₂ hitems fun v hv w hvw => ih v hv hvw
  | ndarray v ih =>
    intro w h
    cases h with
    | ndarray hvw => rw [all_ndarray_iff, ih hvw]

end PyVal

/-! ### The stack -/

/-- The exceptions of functions that call themselves for nested data, and of `json`. -/
inductive JsonError
  /-- `TypeError`. -/
  | notSerializable
  /-- `ValueError`: a float that is not finite. -/
  | outOfRange
  /-- `ValueError`: an integer with more digits than `str` writes. -/
  | tooManyDigits
  /-- `RecursionError`: the interpreter's stack is full. -/
  | recursion
  deriving DecidableEq

/-- What a recursive function takes of the stack: for a scalar in all, for a container before
it calls itself for what is in there. -/
structure Frames (α : Type) where
  scalar : α → ℕ
  dict : ℕ
  list : ℕ
  ndarray : ℕ

/-- The stack that a recursive function needs for a value. -/
def PyVal.frames (fr : Frames α) : PyVal α → ℕ
  | .scalar x => fr.scalar x
  | .dict items => fr.dict + (items.map fun p => p.2.frames fr).foldr max 0
  | .list items => fr.list + (items.map fun v => v.frames fr).foldr max 0
  | .tuple items => fr.list + (items.map fun v => v.frames fr).foldr max 0
  | .ndarray tolist => fr.ndarray + tolist.frames fr
termination_by v => sizeOf v
decreasing_by
  · exact sizeOf_lt_dict (by assumption)
  all_goals decreasing_tactic

/-- What is left of the stack behind some frames. -/
def enter (frames stack : ℕ) : Except JsonError ℕ :=
  if frames ≤ stack then .ok (stack - frames) else .error .recursion

theorem enter_bind {ε : Type} (frames stack : ℕ) (f : ℕ → Except JsonError ε) :
    enter frames stack >>= f
      = if frames ≤ stack then f (stack - frames) else .error .recursion := by
  unfold enter
  split
  · rfl
  · rfl

theorem foldr_max_le_iff {ns : List ℕ} {n : ℕ} : ns.foldr max 0 ≤ n ↔ ∀ m ∈ ns, m ≤ n := by
  induction ns with
  | nil => simp
  | cons m ns ih => rw [List.foldr_cons, Nat.max_le, ih, List.forall_mem_cons]

/-- A container fits if there are frames for it and then for everything in it. -/
theorem container_le_iff {ι : Type} {items : List ι} {f : ι → ℕ} {own stack : ℕ} :
    own + (items.map f).foldr max 0 ≤ stack
      ↔ own ≤ stack ∧ ∀ v ∈ items, f v ≤ stack - own := by
  constructor
  · intro h
    have hitems := foldr_max_le_iff.mp (show (items.map f).foldr max 0 ≤ stack - own by omega)
    exact ⟨by omega, List.forall_mem_map.mp hitems⟩
  · rintro ⟨hown, hitems⟩
    have hmax := foldr_max_le_iff.mpr (List.forall_mem_map.mpr hitems)
    omega

namespace PyVal

variable {fr : Frames α} {stack : ℕ}

theorem frames_dict_le_iff {items : List (PyKey × PyVal α)} :
    (PyVal.dict items).frames fr ≤ stack
      ↔ fr.dict ≤ stack ∧ ∀ p ∈ items, p.2.frames fr ≤ stack - fr.dict := by
  rw [frames, container_le_iff]

theorem frames_list_le_iff {items : List (PyVal α)} :
    (PyVal.list items).frames fr ≤ stack
      ↔ fr.list ≤ stack ∧ ∀ v ∈ items, v.frames fr ≤ stack - fr.list := by
  rw [frames, container_le_iff]

theorem frames_tuple_le_iff {items : List (PyVal α)} :
    (PyVal.tuple items).frames fr ≤ stack
      ↔ fr.list ≤ stack ∧ ∀ v ∈ items, v.frames fr ≤ stack - fr.list := by
  rw [frames, container_le_iff]

theorem frames_ndarray_le_iff {v : PyVal α} :
    (PyVal.ndarray v).frames fr ≤ stack
      ↔ fr.ndarray ≤ stack ∧ v.frames fr ≤ stack - fr.ndarray := by
  rw [frames]
  omega

end PyVal

/-! ### Text -/

/-- The escape of a number of four hexadecimal digits. -/
def hexDigits (n : ℕ) : Str := '\\' :: 'u' :: (Nat.toDigits 16 (0x10000 + n)).drop 1

/-- A character in a string: what is not printable ASCII is escaped. -/
def quoteChar (c : Char) : Str :=
  match c with
  | '"' => "\\\"".toList
  | '\\' => "\\\\".toList
  | '\n' => "\\n".toList
  | '\r' => "\\r".toList
  | '\t' => "\\t".toList
  | '\x0c' => "\\f".toList
  | '\x08' => "\\b".toList
  | c =>
    if ' ' ≤ c ∧ c ≤ '~' then [c]
    else if c.toNat < 0x10000 then hexDigits c.toNat
    else
      -- a surrogate pair
      let n := c.toNat - 0x10000
      hexDigits (0xd800 + n / 0x400) ++ hexDigits (0xdc00 + n % 0x400)

/-- A string between its quotes. -/
def quote (s : Str) : Str := '"' :: s.flatMap quoteChar ++ ['"']

/-- A line break and two blanks for each level. -/
def newline (level : ℕ) : Str := '\n' :: List.replicate (2 * level) ' '

/-- The items of a container between its brackets, each on a line of its own. -/
def bracket (left right : Char) (level : ℕ) (parts : List Str) : Str :=
  if parts = [] then [left, right]
  else left :: newline (level + 1) ++ List.intercalate (',' :: newline (level + 1)) parts
    ++ newline level ++ [right]

/-- What `json` writes for a key. -/
def keyText : PyKey → Except JsonError Str
  | .str s => .ok s
  | .other _ (some s) => .ok s
  | .other _ none => .error .notSerializable

/-- The recursion of `json.dumps(v, indent=2)`, where `scalarText` is what it writes for a
scalar and `stack` are the frames that are left. -/
def jsonDumps (fr : Frames α) (scalarText : α → Except JsonError Str) (level stack : ℕ) :
    PyVal α → Except JsonError Str
  | .scalar x => do
    let _ ← enter (fr.scalar x) stack
    scalarText x
  | .dict items => do
    let rest ← enter fr.dict stack
    let parts ← items.mapM fun p => do
      let key ← keyText p.1
      let text ← jsonDumps fr scalarText (level + 1) rest p.2
      return quote key ++ ": ".toList ++ text
    return bracket '\x7b' '\x7d' level parts
  | .list items => do
    let rest ← enter fr.list stack
    let parts ← items.mapM fun v => jsonDumps fr scalarText (level + 1) rest v
    return bracket '[' ']' level parts
  | .tuple items => do
    let rest ← enter fr.list stack
    let parts ← items.mapM fun v => jsonDumps fr scalarText (level + 1) rest v
    return bracket '[' ']' level parts
  | .ndarray _ => .error .notSerializable
termination_by v => sizeOf v
decreasing_by
  · exact sizeOf_lt_dict (by assumption)
  all_goals decreasing_tactic

theorem exists_enter_bind_iff {ε : Type} {frames stack : ℕ} {f : ℕ → Except JsonError ε} :
    (∃ b, enter frames stack >>= f = .ok b)
      ↔ frames ≤ stack ∧ ∃ b, f (stack - frames) = .ok b := by
  rw [enter_bind]
  by_cases h : frames ≤ stack
  · rw [if_pos h]
    exact (and_iff_right h).symm
  · rw [if_neg h]
    exact iff_of_false nofun fun hf => h hf.1

open PyVal in
/-- **Plain data can be written** exactly if it fits the stack and every scalar can be. -/
theorem exists_jsonDumps_iff {P : α → Prop} {fr : Frames α}
    {scalarText : α → Except JsonError Str} {v : PyVal α} (hv : v.Plain P) (level stack : ℕ) :
    (∃ s, jsonDumps fr scalarText level stack v = .ok s)
      ↔ v.frames fr ≤ stack ∧ v.All fun x => ∃ s, scalarText x = .ok s := by
  induction hv generalizing level stack with
  | @scalar x hx => rw [jsonDumps, exists_enter_bind_iff, all_scalar_iff, frames]
  | @dict items hkeys _ _ ih =>
    -- a key of a plain value is text, so only its value can fail
    have hitem : ∀ p ∈ items, (∃ s, (do
        let key ← keyText p.1
        let text ← jsonDumps fr scalarText (level + 1) (stack - fr.dict) p.2
        return quote key ++ ": ".toList ++ text) = Except.ok s) ↔
          p.2.frames fr ≤ stack - fr.dict ∧ p.2.All fun x => ∃ s, scalarText x = .ok s := by
      intro p hp
      obtain ⟨k, hk⟩ := hkeys p hp
      rw [hk, keyText, ok_bind, exists_bind_pure_iff, ih p hp (level + 1) (stack - fr.dict)]
    rw [jsonDumps, exists_enter_bind_iff, exists_bind_pure_iff, exists_mapM_eq_ok_iff,
      frames_dict_le_iff, all_dict_iff, List.forall_mem_map, and_assoc, ← forall₂_and]
    exact and_congr_right fun _ => forall₂_congr hitem
  | @list items _ ih =>
    rw [jsonDumps, exists_enter_bind_iff, exists_bind_pure_iff, exists_mapM_eq_ok_iff,
      frames_list_le_iff, all_list_iff, and_assoc, ← forall₂_and]
    exact and_congr_right fun _ => forall₂_congr fun v hv => ih v hv (level + 1) (stack - fr.list)

end PyData
