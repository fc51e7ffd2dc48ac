import Mathlib.Algebra.Order.Ring.Int

/-!
# Text functions of the Rust standard library

White space, blank text and parsing of 128-bit integers, with the documented
behaviour of `char::is_whitespace`, `str::trim` and `str::parse::<i128>`.
-/

namespace TelemetryEdge
namespace Text

/-- Unicode `White_Space`, the class of `char::is_whitespace`. -/
def isWhitespace (c : Char) : Bool :=
  let code := c.toNat
  (9 ≤ code && code ≤ 13) || code == 32 || code == 0x85 || code == 0xA0 ||
    code == 0x1680 || (0x2000 ≤ code && code ≤ 0x200A) || code == 0x2028 ||
    code == 0x2029 || code == 0x202F || code == 0x205F || code == 0x3000

/-- `text.trim().is_empty()`. -/
def isBlank (text : String) : Bool :=
  text.toList.all isWhitespace

/-- ASCII lower-case letters, digits and underscores. -/
def isIdentChar (c : Char) : Bool :=
  c.isLower || c.isDigit || c == '_'

/-- The number written by decimal digits after those already read. -/
def digitsValue : Nat → List Char → Option Nat
  | value, [] => some value
  | value, c :: rest =>
      if c.isDigit then digitsValue (10 * value + (c.toNat - '0'.toNat)) rest
      else none

/-- A signed number in the 128-bit range, from its sign and its digits. -/
def signedValue (negative : Bool) (digits : List Char) : Option Int :=
  match digits with
  | [] => none
  | _ =>
      match digitsValue 0 digits with
      | none => none
      | some magnitude =>
          let value : Int := if negative then -magnitude else magnitude
          if -(2 ^ 127) ≤ value ∧ value < 2 ^ 127 then some value else none

/-- `text.parse::<i128>().ok()`: an optional sign and at least one digit. -/
def parseI128 (text : String) : Option Int :=
  match text.toList with
  | '-' :: digits => signedValue true digits
  | '+' :: digits => signedValue false digits
  | digits => signedValue false digits

/-- Identifier characters take one byte. -/
theorem utf8Size_of_isIdentChar
    {c : Char}
    (ident : isIdentChar c = true) :
    c.utf8Size = 1 := by
  have lower : c.isLower = (decide (97 ≤ c.val) && decide (c.val ≤ 122)) := rfl
  have digit : c.isDigit = (decide (48 ≤ c.val) && decide (c.val ≤ 57)) := rfl
  rw [Char.utf8Size_eq_one_iff, UInt32.le_iff_toNat_le]
  simp only [isIdentChar, lower, digit, Bool.or_eq_true, Bool.and_eq_true,
    decide_eq_true_eq, beq_iff_eq, UInt32.le_iff_toNat_le] at ident
  rcases ident with (⟨-, atMost⟩ | ⟨-, atMost⟩) | rfl
  · exact atMost.trans (by decide)
  · exact atMost.trans (by decide)
  · decide

/-- A text of identifier characters has as many bytes as characters. -/
theorem utf8ByteSize_of_isIdentChar
    {text : String}
    (ident : ∀ c ∈ text.toList, isIdentChar c = true) :
    text.utf8ByteSize = text.length := by
  rw [← String.length_toList, ← String.ofList_toList (s := text)]
  generalize text.toList = chars at ident
  rw [String.toList_ofList]
  induction chars with
  | nil => rfl
  | cons c chars inductionHypothesis =>
      rw [List.forall_mem_cons] at ident
      have split : String.ofList (c :: chars) =
          String.singleton c ++ String.ofList chars := by
        rw [String.singleton_eq_ofList, ← String.ofList_append,
          List.singleton_append]
      rw [split, String.utf8ByteSize_append, String.utf8ByteSize_singleton,
        inductionHypothesis ident.2, utf8Size_of_isIdentChar ident.1,
        List.length_cons, Nat.add_comm]

example : ["1", "01", "+1", "-0", "-", "", "1x"].map parseI128 =
    [some 1, some 1, some 1, some 0, none, none, none] := by decide

end Text
end TelemetryEdge
