import CcsVerifier.Python.Json

/-!
# `repr` and `str`

How values are spelled in error messages and in the reasons of trust decisions. Which non-ASCII
characters `repr` escapes is decided by the Unicode database, here the parameter `isPrintable`.
-/

section Format

variable (isPrintable : CodePoint → Bool)

/-- The hexadecimal digits of `n`, padded to `width`. -/
def paddedHex : ℕ → ℕ → Text
  | 0, _ => []
  | width + 1, n => paddedHex width (n / 16) ++ [Text.hexDigit (n % 16)]

/-- The spelling of a code point in the `repr` of a string quoted by `quote`. -/
def reprChar (quote c : CodePoint) : Text :=
  if c = quote ∨ c.val = 0x5c then text "\\" ++ [c]
  else if c.val = 0x09 then text "\\t"
  else if c.val = 0x0a then text "\\n"
  else if c.val = 0x0d then text "\\r"
  else if 0x20 ≤ c.val ∧ c.val < 0x7f ∨ 0x7f < c.val ∧ isPrintable c then [c]
  else if c.val < 0x100 then text "\\x" ++ paddedHex 2 c.val
  else if c.val < 0x10000 then text "\\u" ++ paddedHex 4 c.val
  else text "\\U" ++ paddedHex 8 c.val

/-- The quote of a `repr`: a double quote when the text holds a single quote and no double. -/
def reprQuote (s : Text) : Text :=
  if s.contains 0x27 && !s.contains 0x22 then text "\"" else text "'"

/-- `repr(s)` of a string. -/
def strRepr (s : Text) : Text :=
  reprQuote s ++ s.flatMap (reprChar isPrintable ((reprQuote s).headD 0)) ++ reprQuote s

/-- `repr(b)` of a byte string, whose bytes are spelled as code points of which only the
printable ASCII ones stand for themselves. -/
def bytesRepr (b : Bytes) : Text :=
  let s := Text.ofAscii b
  text "b" ++ reprQuote s ++ s.flatMap (reprChar (fun _ => false) ((reprQuote s).headD 0))
    ++ reprQuote s

namespace PyVal

mutual

/-- `repr(v)`. -/
def repr : PyVal → Text
  | .none => text "None"
  | .bool true => text "True"
  | .bool false => text "False"
  | .int z => intText z
  | .float x => floatRepr x
  | .str s => strRepr isPrintable s
  | .bytes b => bytesRepr b
  | .list xs => text "[" ++ (text ", ").intercalate (reprItems xs) ++ text "]"
  | .tuple [x] => text "(" ++ repr x ++ text ",)"
  | .tuple xs => text "(" ++ (text ", ").intercalate (reprItems xs) ++ text ")"
  | .dict entries => text "\x7b" ++ (text ", ").intercalate (reprEntries entries) ++ text "\x7d"
  | .enum cls member value =>
    text "<" ++ cls ++ text "." ++ member ++ text ": " ++ repr value ++ text ">"

/-- The spellings of the elements of a container. -/
def reprItems : List PyVal → List Text
  | [] => []
  | x :: xs => repr x :: reprItems xs

/-- The spellings of the entries of a dictionary. -/
def reprEntries : List (PyVal × PyVal) → List Text
  | [] => []
  | (k, v) :: rest => (repr k ++ text ": " ++ repr v) :: reprEntries rest

end

/-- `str(v)`, which is also what a format string inserts for `{v}`. -/
def format : PyVal → Text
  | .str s => s
  | .enum cls member _ => cls ++ text "." ++ member
  | v => repr isPrintable v

/-- A string is formatted as itself. -/
@[simp]
theorem format_str (s : Text) : (PyVal.str s).format isPrintable = s := by
  unfold format
  rfl

/-- A float is formatted as its `repr`. -/
@[simp]
theorem format_float (x : Binary64) : (PyVal.float x).format isPrintable = floatRepr x := by
  unfold format repr
  rfl

end PyVal

end Format
