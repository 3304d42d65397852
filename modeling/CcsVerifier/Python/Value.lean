import CcsVerifier.Encoding.Base64
import CcsVerifier.Numeric.Binary64

/-!
# Python values

The run-time values that receipts, commands and messages are made of, and the built-in
operations on them that the verifier relies on: truthiness, comparison of numbers, arithmetic
on times and the exceptions these raise.

Dataclass fields are not checked at run time, so a field annotated `float` may hold any of
these values; every operation below is therefore total on values and raises where Python does.
-/

/-- The exception classes that the modelled code raises or tells apart. -/
inductive ExcKind where
  | valueError
  | unicodeEncodeError
  | unicodeDecodeError
  | binasciiError
  | jsonDecodeError
  | typeError
  | attributeError
  | keyError
  | overflowError
  | runtimeError
  | assertionError
  | transportError
  | timeoutError
  | incompleteReadError
  | connectionError
  | osError
  | cancelledError
  | ruleError
deriving DecidableEq

/-- A raised exception: its class and its text. -/
structure PyExc where
  /-- The class of the exception. -/
  kind : ExcKind
  /-- The text of the exception, `str(e)`. -/
  message : Text
deriving DecidableEq

namespace PyExc

/-- `isinstance(e, ValueError)`: the Unicode, Base64 and JSON errors are subclasses. -/
def isValueError (e : PyExc) : Bool :=
  match e.kind with
  | .valueError | .unicodeEncodeError | .unicodeDecodeError | .binasciiError
  | .jsonDecodeError => true
  | _ => false

/-- `isinstance(e, (TransportError, asyncio.TimeoutError, OSError))`: a connection error is an
`OSError`. -/
def isNetworkError (e : PyExc) : Bool :=
  match e.kind with
  | .transportError | .timeoutError | .connectionError | .osError => true
  | _ => false

/-- `raise ValueError(message)`. -/
def value {α : Type} (message : Text) : Except PyExc α := .error ⟨.valueError, message⟩

/-- `raise TypeError(message)`. -/
def type {α : Type} (message : Text) : Except PyExc α := .error ⟨.typeError, message⟩

end PyExc

namespace Text

/-- `t.encode("utf-8")`. -/
def encode (t : Text) : Except PyExc Bytes :=
  match t.encodeUtf8 with
  | some b => .ok b
  | none => .error ⟨.unicodeEncodeError, text "'utf-8' codec can't encode: surrogates not allowed"⟩

/-- A text is encoded exactly when it holds no surrogates. -/
theorem encode_isOk_iff {t : Text} : (∃ b, t.encode = .ok b) ↔ t.Encodable := by
  rw [← encodeUtf8_isSome_iff, encode]
  cases t.encodeUtf8 <;> simp

/-- The bytes determine the text. -/
theorem encode_injective {s t : Text} {b : Bytes} (hs : s.encode = .ok b) (ht : t.encode = .ok b) :
    s = t := by
  have hsome : ∀ {u : Text}, u.encode = .ok b → u.encodeUtf8 = some b := fun {u} hu => by
    unfold encode at hu
    split at hu
    · next heq => cases hu; exact heq
    · cases hu
  exact encodeUtf8_injective (hsome hs) (hsome ht)

end Text

/-- A computation that returns went through each of its steps. -/
theorem Except.bind_eq_ok_iff {ε α β : Type} {x : Except ε α} {f : α → Except ε β} {r : β} :
    (x >>= f) = .ok r ↔ ∃ a, x = .ok a ∧ f a = .ok r := by
  cases x <;> simp [bind, Except.bind]

/-- A computation on every item returns when it returns on each of them. -/
theorem Except.mapM_isOk_iff {ε α β : Type} {f : α → Except ε β} {xs : List α} :
    (∃ ys, xs.mapM f = .ok ys) ↔ ∀ x ∈ xs, ∃ y, f x = .ok y := by
  induction xs with
  | nil => simp [pure, Except.pure]
  | cons x xs ih =>
    simp only [List.mapM_cons, Except.bind_eq_ok_iff, pure, Except.pure, Except.ok.injEq,
      List.forall_mem_cons, ← ih]
    constructor
    · rintro ⟨_, y, hy, ys, hys, -⟩
      exact ⟨⟨y, hy⟩, ys, hys⟩
    · rintro ⟨⟨y, hy⟩, ys, hys⟩
      exact ⟨_, y, hy, ys, hys, rfl⟩

/-- Whatever the computation raises is of a kind. -/
def Except.Raises {ε α : Type} (P : ε → Prop) (x : Except ε α) : Prop := ∀ e, x = .error e → P e

namespace Except

variable {ε α β : Type} {P : ε → Prop}

theorem raises_ok (a : α) : Raises P (.ok a : Except ε α) := fun _ h => by cases h

theorem raises_error {e : ε} (h : P e) : Raises P (.error e : Except ε α) := fun _ h' => by
  cases h'
  exact h

/-- A computation raises what one of its steps raises. -/
theorem Raises.bind {x : Except ε α} {f : α → Except ε β} (hx : x.Raises P)
    (hf : ∀ a, x = .ok a → (f a).Raises P) : (x >>= f).Raises P := by
  cases x with
  | error e => exact raises_error (hx e rfl)
  | ok a => exact hf a rfl

/-- What no element raises the whole list does not raise. -/
theorem Raises.mapM {f : α → Except ε β} {xs : List α} (hf : ∀ x ∈ xs, (f x).Raises P) :
    (xs.mapM f).Raises P := by
  induction xs with
  | nil => exact raises_ok []
  | cons x xs ih =>
    rw [List.mapM_cons]
    obtain ⟨hx, hxs⟩ := List.forall_mem_cons.mp hf
    exact hx.bind fun y _ => (ih hxs).bind fun ys _ => raises_ok (y :: ys)

end Except

/-- A Python value. A member of a plain `Enum` compares equal to no string, so it is kept apart
from its value; a member of a string-valued `Enum` class behaves as `str` and is one here. -/
inductive PyVal where
  | none
  | bool (b : Bool)
  | int (z : ℤ)
  | float (x : Binary64)
  | str (s : Text)
  | bytes (b : Bytes)
  | list (xs : List PyVal)
  | tuple (xs : List PyVal)
  | dict (entries : List (PyVal × PyVal))
  | enum (cls member : Text) (value : PyVal)

namespace PyVal

/-- Induction on a value, with a hypothesis for every element of a container. -/
@[elab_as_elim]
theorem induct {P : PyVal → Prop} (none : P .none) (bool : ∀ b, P (.bool b))
    (int : ∀ z, P (.int z)) (float : ∀ x, P (.float x)) (str : ∀ s, P (.str s))
    (bytes : ∀ b, P (.bytes b)) (list : ∀ xs, (∀ x ∈ xs, P x) → P (.list xs))
    (tuple : ∀ xs, (∀ x ∈ xs, P x) → P (.tuple xs))
    (dict : ∀ entries, (∀ k v, (k, v) ∈ entries → P k ∧ P v) → P (.dict entries))
    (enum : ∀ cls member value, P value → P (.enum cls member value)) (v : PyVal) : P v := by
  -- the motives for lists and entries say that `P` holds of their members
  refine @PyVal.rec P (fun xs => ∀ x ∈ xs, P x)
    (fun entries => ∀ k v, (k, v) ∈ entries → P k ∧ P v) (fun entry => P entry.1 ∧ P entry.2)
    none bool int float str bytes list tuple dict enum ?_ ?_ ?_ ?_ ?_ v
  · simp
  · intro x xs hx hxs y hy
    rcases List.mem_cons.mp hy with rfl | hy
    · exact hx
    · exact hxs y hy
  · simp
  · intro entry rest hentry hrest k v hkv
    rcases List.mem_cons.mp hkv with rfl | hkv
    · exact hentry
    · exact hrest k v hkv
  · exact fun k v hk hv => ⟨hk, hv⟩

/-- `type(v).__name__`. -/
def typeName : PyVal → Text
  | .none => text "NoneType"
  | .bool _ => text "bool"
  | .int _ => text "int"
  | .float _ => text "float"
  | .str _ => text "str"
  | .bytes _ => text "bytes"
  | .list _ => text "list"
  | .tuple _ => text "tuple"
  | .dict _ => text "dict"
  | .enum cls _ _ => cls

/-- `bool(v)`: zero, the empty string and the empty containers are false. -/
def truthy : PyVal → Bool
  | .none => false
  | .bool b => b
  | .int z => decide (z ≠ 0)
  | .float x => decide (x.toRat? ≠ some 0)
  | .str s => !s.isEmpty
  | .bytes b => !b.isEmpty
  | .list xs => !xs.isEmpty
  | .tuple xs => !xs.isEmpty
  | .dict entries => !entries.isEmpty
  | .enum _ _ _ => true

/-- A string is true unless it is empty. -/
@[simp]
theorem truthy_str {s : Text} : (PyVal.str s).truthy = true ↔ s ≠ [] := by
  simp [truthy]

/-- `v == s` for a string `s`: only that very string is equal to it. -/
def eqStr (v : PyVal) (s : Text) : Bool :=
  match v with
  | .str t => t == s
  | _ => false

/-- Only a string equals a string. -/
@[simp]
theorem eqStr_iff {v : PyVal} {s : Text} : v.eqStr s = true ↔ v = .str s := by
  cases v <;> simp [eqStr]

/-- Everything else differs from it. -/
@[simp]
theorem eqStr_eq_false_iff {v : PyVal} {s : Text} : v.eqStr s = false ↔ v ≠ .str s := by
  rw [← Bool.not_eq_true, eqStr_iff]

end PyVal

/-! ## Numbers -/

/-- A Python number. `True` and `False` count as `1` and `0`. -/
inductive PyNum where
  | int (z : ℤ)
  | float (x : Binary64)
deriving DecidableEq

namespace PyNum

/-- The number as an object. -/
def toVal : PyNum → PyVal
  | .int z => .int z
  | .float x => .float x

/-- The exact value of a number on the extended rational line; a NaN has none. Python compares
an `int` with a `float` by exact value. -/
def ext : PyNum → Option (WithBot (WithTop ℚ))
  | .int z => some (((z : ℚ) : WithTop ℚ) : WithBot (WithTop ℚ))
  | .float x => x.ext

/-- `a < b`, false when either is a NaN. -/
def lt (a b : PyNum) : Bool :=
  match a.ext, b.ext with
  | some x, some y => decide (x < y)
  | _, _ => false

/-- `a <= b`, false when either is a NaN. -/
def le (a b : PyNum) : Bool :=
  match a.ext, b.ext with
  | some x, some y => decide (x ≤ y)
  | _, _ => false

/-- `float(a)`; an integer beyond the range of a double raises. -/
def toBinary64 : PyNum → Except PyExc Binary64
  | .float x => .ok x
  | .int z =>
    match Binary64.round z with
    | .inf _ => .error ⟨.overflowError, text "int too large to convert to float"⟩
    | x => .ok x

/-- An integer that rounds to a double is converted to it. -/
theorem toBinary64_int {z : ℤ} {x : FiniteBinary64} (h : Binary64.round z = .fin x) :
    (PyNum.int z).toBinary64 = .ok (.fin x) := by
  unfold toBinary64
  simp only [h]

/-- An arithmetic operation: exact on two integers, otherwise on the two as doubles. -/
def arith (onInt : ℤ → ℤ → ℤ) (onFloat : Binary64 → Binary64 → Binary64) (a b : PyNum) :
    Except PyExc PyNum :=
  match a, b with
  | .int x, .int y => .ok (.int (onInt x y))
  | a, b => do
      let x ← a.toBinary64
      let y ← b.toBinary64
      return .float (onFloat x y)

/-- `a + b`. -/
def add (a b : PyNum) : Except PyExc PyNum := arith (· + ·) Binary64.add a b

/-- `a - b`. -/
def sub (a b : PyNum) : Except PyExc PyNum := arith (· - ·) Binary64.sub a b

/-- A sum with a float in it is the sum of two doubles. -/
theorem add_eq_float {a b : PyNum} {x y : Binary64} (ha : a.toBinary64 = .ok x)
    (hb : b.toBinary64 = .ok y) (hint : ¬∃ m n, a = .int m ∧ b = .int n) :
    a.add b = .ok (.float (x.add y)) := by
  rw [add, arith]
  · simp only [ha, hb, bind, Except.bind]
    rfl
  · rintro m n rfl rfl
    exact hint ⟨m, n, rfl, rfl⟩

/-- The double nearest to a number. -/
def double : PyNum → Binary64
  | .int z => Binary64.round z
  | .float x => x

/-- A number is converted to the double that it rounds to. -/
theorem eq_double_of_toBinary64 {n : PyNum} {x : Binary64} (h : n.toBinary64 = .ok x) :
    x = n.double := by
  cases n with
  | float y =>
    cases h
    rfl
  | int z =>
    unfold toBinary64 at h
    dsimp only at h
    split at h
    · cases h
    · cases h
      rfl

/-- Comparisons depend on the values only. -/
theorem le_congr {a b c : PyNum} (h : b.ext = c.ext) : a.le b = a.le c := by
  simp only [le, h]

/-- Comparing is consistent: what is at most is not greater. -/
theorem lt_eq_false_of_le {a b : PyNum} (h : a.le b = true) : b.lt a = false := by
  unfold le at h
  unfold lt
  split at h
  · next x y hx hy =>
    rw [hx, hy]
    simpa using h
  · cases h

/-- Comparing is transitive. -/
theorem lt_of_lt_le {a b c : PyNum} (hab : a.lt b = true) (hbc : b.le c = true) :
    a.lt c = true := by
  unfold lt at hab
  unfold le at hbc
  unfold lt
  split at hab
  · next x y hx hy =>
    rw [hy] at hbc
    split at hbc
    · next y' z hy' hz =>
      cases hy'
      rw [hx, hz]
      simpa using lt_of_lt_of_le (of_decide_eq_true hab) (of_decide_eq_true hbc)
    · cases hbc
  · cases hab

/-- A finite float takes part in the order. -/
theorem isSome_ext_of_isFinite {x : Binary64} (h : x.isFinite = true) :
    (PyNum.float x).ext.isSome = true := by
  obtain ⟨q, hq⟩ := Option.isSome_iff_exists.mp h
  exact Option.isSome_iff_exists.mpr ⟨_, Binary64.toRat?_eq_some_iff_ext.mp hq⟩

/-- Numbers that are no NaNs are comparable. -/
theorem le_eq_not_lt {a b : PyNum} (ha : a.ext.isSome = true) (hb : b.ext.isSome = true) :
    a.le b = !b.lt a := by
  obtain ⟨x, hx⟩ := Option.isSome_iff_exists.mp ha
  obtain ⟨y, hy⟩ := Option.isSome_iff_exists.mp hb
  simp only [le, lt, hx, hy, ← not_lt, decide_not]

end PyNum

namespace PyVal

/-- The number that a value stands for in a comparison or a sum. -/
def num? : PyVal → Option PyNum
  | .bool b => some (.int b.toInt)
  | .int z => some (.int z)
  | .float x => some (.float x)
  | _ => Option.none

/-- Whether a value is an `int`, a `float` or a `bool`. -/
def IsNum (v : PyVal) : Prop := v.num?.isSome

instance (v : PyVal) : Decidable v.IsNum := by
  unfold IsNum
  infer_instance

/-- An ordering comparison with operator `op` of two operands of which the code knows one to be
a number: another number compares, anything else is a `TypeError`. -/
def compare (op : Text) (test : PyNum → PyNum → Bool) (a b : PyVal) : Except PyExc Bool :=
  match a.num?, b.num? with
  | some x, some y => .ok (test x y)
  | _, _ => PyExc.type (text "'" ++ op ++ text "' not supported between instances of '"
      ++ a.typeName ++ text "' and '" ++ b.typeName ++ text "'")

/-- `a < b`. -/
def lt (a b : PyVal) : Except PyExc Bool := compare (text "<") PyNum.lt a b

/-- `a > b`. -/
def gt (a b : PyVal) : Except PyExc Bool := compare (text ">") (fun x y => PyNum.lt y x) a b

/-- `a <= b`. -/
def le (a b : PyVal) : Except PyExc Bool := compare (text "<=") PyNum.le a b

/-- A sum or difference with operator `op` of two operands of which the code knows one to be a
number: another number is added, anything else is a `TypeError`. -/
def arith (op : Text) (onNum : PyNum → PyNum → Except PyExc PyNum) (a b : PyVal) :
    Except PyExc PyVal :=
  match a.num?, b.num? with
  | some x, some y => (onNum x y).map PyNum.toVal
  | _, _ => PyExc.type (text "unsupported operand type(s) for " ++ op ++ text ": '"
      ++ a.typeName ++ text "' and '" ++ b.typeName ++ text "'")

/-- `a + b`. -/
def add (a b : PyVal) : Except PyExc PyVal := arith (text "+") PyNum.add a b

/-- `a - b`. -/
def sub (a b : PyVal) : Except PyExc PyVal := arith (text "-") PyNum.sub a b

/-- A number is read off its value. -/
@[simp]
theorem num?_toVal (n : PyNum) : n.toVal.num? = some n := by
  cases n <;> rfl

/-- The difference of a float and a number. -/
theorem sub_eq_ok_iff {x : Binary64} {n : PyNum} {v : PyVal} :
    (PyVal.float x).sub n.toVal = .ok v ↔
      (∃ y, n.toBinary64 = .ok y) ∧ v = .float (x.sub n.double) := by
  have hsub : (PyVal.float x).sub n.toVal = n.toBinary64.map fun y => .float (x.sub y) := by
    rw [sub, arith, num?_toVal]
    change (n.toBinary64 >>= fun y => Except.ok (PyNum.float (x.sub y))).map PyNum.toVal = _
    cases n.toBinary64 <;> rfl
  rw [hsub]
  cases hn : n.toBinary64 with
  | error e => simp [Except.map]
  | ok y =>
    rw [← PyNum.eq_double_of_toBinary64 hn]
    simp [Except.map, eq_comm]

/-- A comparison returns exactly for two numbers. -/
theorem compare_eq_ok_iff {op : Text} {test : PyNum → PyNum → Bool} {a b : PyVal} {r : Bool} :
    compare op test a b = .ok r ↔
      ∃ x y, a.num? = some x ∧ b.num? = some y ∧ test x y = r := by
  unfold compare
  cases ha : a.num? <;> cases hb : b.num? <;> simp [PyExc.type]

/-- Arithmetic returns exactly for two numbers on which it does not overflow. -/
theorem arith_eq_ok_iff {op : Text} {onNum : PyNum → PyNum → Except PyExc PyNum} {a b r : PyVal} :
    arith op onNum a b = .ok r ↔
      ∃ x y n, a.num? = some x ∧ b.num? = some y ∧ onNum x y = .ok n ∧ r = n.toVal := by
  unfold arith
  cases ha : a.num? with
  | none => simp [PyExc.type]
  | some x =>
    cases hb : b.num? with
    | none => simp [PyExc.type]
    | some y => cases hn : onNum x y <;> simp [Except.map, hn, eq_comm]

/-- A number that counts as false is a zero. -/
theorem ext_of_not_truthy {v : PyVal} {n : PyNum} (h : v.truthy = false) (hn : v.num? = some n) :
    n.ext = PyNum.ext (.int 0) := by
  cases v with
  | bool b =>
    cases hn
    cases h
    rfl
  | int z =>
    cases hn
    simp only [truthy, ne_eq, decide_not, Bool.not_eq_false', decide_eq_true_eq] at h
    rw [h]
  | float x =>
    cases hn
    simp only [truthy, ne_eq, decide_not, Bool.not_eq_false', decide_eq_true_eq] at h
    exact (Binary64.toRat?_eq_some_iff_ext.mp h).trans rfl
  | _ => cases hn

end PyVal
