import Mathlib.Data.Int.Notation
import Mathlib.Data.Nat.Notation

/-!
# Formatted output

Texts are lists of characters.  A field is a text that is filled with blanks to its width; a longer
text keeps its length (`length_field`).  `snprintf` returns the length of the whole text and leaves
what fits into the buffer with its NUL.
-/

namespace Format

/-- `%-*s`: the text, filled with blanks on the right. -/
def field (width : ℕ) (text : List Char) :
    List Char := text ++ List.replicate (width - text.length) ' '

/-- `%d` -/
def decimal (n : ℤ) : List Char :=
  if n < 0 then '-' :: Nat.toDigits 10 n.natAbs else Nat.toDigits 10 n.natAbs

/-- `%x` -/
def hex (n : ℕ) : List Char := Nat.toDigits 16 n

/-- `snprintf` into a buffer of `size` bytes: what it returns, and the text in the buffer. -/
def snprintf (size : ℕ) (text : List Char) : ℕ × List Char := (text.length, text.take (size - 1))

/-- A field is as long as its width, or as its text. -/
theorem length_field (width : ℕ) (text : List Char) :
    (field width text).length = max width text.length := by
  rw [field, List.length_append, List.length_replicate]
  omega

/-- A text that fits makes a field of the width. -/
theorem length_field_of_le {width : ℕ} {text : List Char} (h : text.length ≤ width) :
    (field width text).length = width := by
  rw [length_field, Nat.max_eq_left h]

/-- An `int` has at most eleven characters. -/
theorem length_decimal_le {n : ℤ} (hlow : -2147483648 ≤ n) (hhigh : n < 2147483648) :
    (decimal n).length ≤ 11 := by
  have hdigits : (Nat.toDigits 10 n.natAbs).length ≤ 10 :=
    (Nat.length_toDigits_le_iff (by decide) (by decide)).mpr (by omega)
  unfold decimal
  split
  · rw [List.length_cons]
    omega
  · omega

/-- A word of 32 bits has at most eight hexadecimal digits. -/
theorem length_hex_le {n : ℕ} (h : n < 4294967296) : (hex n).length ≤ 8 :=
  (Nat.length_toDigits_le_iff (by decide) (by decide)).mpr (by omega)

/-- A text that fits into the buffer is not cut. -/
theorem snprintf_of_lt {size : ℕ} {text : List Char} (h : text.length < size) :
    snprintf size text = (text.length, text) := by
  rw [snprintf, List.take_of_length_le (by omega)]

end Format
